/-
  Flowprint.Config.File
  ────────────────────────────────
  Search settings in files.  A file whose name ends in `.yaml` or `.yml` holds YAML, any other JSON.
-/
import Flowprint.Config.Document
import Flowprint.Failure
import Flowprint.Text.Cut

namespace Flowprint.SearchConfig

/-- The ending of the name of a file behind its last point.  A name that only begins with a point
has none. -/
def extension? (path : String) : Option String :=
  let chars := path.toList
  let name := ((Text.cutLast? '/' chars).map Prod.snd).getD chars
  match Text.cutLast? '.' name with
  | some (_ :: _, ending) => some (.ofList ending)
  | _ => none

/-- The settings in a file. -/
def load (path : String) (disk : Disk) : Except Failure SearchConfig :=
  match disk.readText path with
  | .error fault => .error (.readConfig path fault)
  | .ok text =>
    match extension? path with
    | some "yaml" => yaml text
    | some "yml" => yaml text
    | _ =>
      match parse text with
      | .ok config => .ok config
      | .error fault => .error (.parseConfigJson fault)
where
  /-- The settings in a YAML text. -/
  yaml (text : String) : Except Failure SearchConfig :=
    match parseYaml? text with
    | some config => .ok config
    | none => .error .parseConfigYaml

end Flowprint.SearchConfig
