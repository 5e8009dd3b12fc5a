/-
  Flowprint.Index.Locator
  ────────────────────────────────
  What the path of an index says of where its database is.

  The empty path and `:memory:` stand for a database in no file.  A path that begins with `file:` is
  a URI: an authority that is empty or the local host, a path, options behind a question mark, and a
  fragment that does not matter.  A percent sign and two digits stand for a byte, and a byte of zero
  ends its part.  Of the options, `mode` says whether the database is in a file, and whether the
  file may be created.
-/
import Flowprint.Text.Blank
import Flowprint.Text.Cut
import Flowprint.Text.Radix
import Flowprint.Text.Utf8

namespace Flowprint.Index

/-- Where a database is. -/
inductive Locator where
  /-- In no file. -/
  | alone
  /-- In a file, which may be created or must be there. -/
  | file (path : String) (mayCreate : Bool)
  deriving Repr, DecidableEq

/-- How a database is used. -/
inductive Access where
  | read
  | write
  /-- The file may be created. -/
  | create
  /-- There is no file. -/
  | memory
  deriving Repr, DecidableEq

namespace Access

/-- The access that an option names. -/
def ofMode? (mode : String) : Option Access :=
  match mode with
  | "ro" => some .read
  | "rw" => some .write
  | "rwc" => some .create
  | "memory" => some .memory
  | _ => none

/-- How much an access grants. -/
def rank : Access → Nat
  | .read => 1
  | .write => 2
  | .create => 3
  | .memory => 4

/-- Whether an option may change one access to another: it grants no more, but for a database in no
file. -/
def allows (old new : Access) : Bool :=
  new == .memory || new.rank ≤ old.rank

/-- The access behind an option.  Options other than those known here do not matter. -/
def withOption? (access : Access) (name value : String) : Option Access :=
  match name with
  | "mode" => (ofMode? value).filter access.allows
  | "cache" => if ["shared", "private"].contains value then some access else none
  | "vfs" => if ["unix", "unix-dotfile", "unix-excl", "unix-none"].contains value then some access
    else none
  | _ => some access

end Access

namespace Locator

/-! ## §1. Parts of URIs. -/

/-- The byte of two digits. -/
def byte? (high low : Char) : Option UInt8 := do
  let high ← Text.Radix.digit? 16 high
  let low ← Text.Radix.digit? 16 low
  return .ofNat (high * 16 + low)

/-- The bytes that a part of a URI stands for. -/
def decode : List Char → List UInt8
  | [] => []
  | '%' :: high :: low :: rest =>
    match byte? high low with
    | some 0 => []
    | some byte => byte :: decode rest
    | none => 0x25 :: decode (high :: low :: rest)
  | c :: rest => Text.bytesOf (String.singleton c) ++ decode rest

/-- The text that a part of a URI stands for. -/
def text? (part : List Char) : Option String :=
  Text.ofBytes? (decode part)

/-- The name and the value of an option. -/
def option? (part : List Char) : Option (String × String) := do
  let (name, value) := (Text.cutFirst? '=' part).getD (part, [])
  return (← text? name, ← text? value)

/-- A URI behind its scheme without its authority. -/
def dropAuthority? : List Char → Option (List Char)
  | '/' :: '/' :: rest =>
    let authority := String.ofList (rest.takeWhile (· != '/'))
    if authority = "" ∨ authority = "localhost" then some (rest.dropWhile (· != '/')) else none
  | uri => some uri

/-! ## §2. Locators. -/

/-- What a name says, apart from options. -/
def ofName? (access : Access) (name : String) : Option Locator :=
  if access = .memory ∨ name = "" ∨ name = ":memory:" then some .alone
  else if access = .read then none
  else some (.file name (access = .create))

/-- What a URI behind its scheme says. -/
def ofUri? (access : Access) (uri : List Char) : Option Locator := do
  let uri := (← dropAuthority? uri).takeWhile (· != '#')
  let (name, query) := (Text.cutFirst? '?' uri).getD (uri, [])
  let options ← (Text.pieces (· == '&') query).mapM option?
  let access ← options.foldlM (fun access (name, value) => access.withOption? name value) access
  ofName? access (← text? name)

/-- What a path says, if it can be a path. -/
def ofPath? (access : Access) (path : String) : Option Locator :=
  if path.contains '\x00' then none
  else
    match path.toList with
    | 'f' :: 'i' :: 'l' :: 'e' :: ':' :: uri => ofUri? access uri
    | _ => ofName? access path

end Locator

end Flowprint.Index
