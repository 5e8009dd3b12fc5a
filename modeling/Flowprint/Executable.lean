/-
  Flowprint.Executable
  ────────────────────────────────
  Executables are known by what they contain: the first 64 bits of the hash of their bytes.
-/
import Flowprint.Digest
import Flowprint.Disk

namespace Flowprint.Executable

/-- The number of an executable. -/
def ofBytes (content : List UInt8) : UInt64 :=
  .ofBitVec (Digest.leading 64 (Digest.sha256 content))

/-- The number of the executable in a file. -/
def load (path : String) (disk : Disk) : Except FileFault UInt64 :=
  (disk.readBytes path).map ofBytes

end Flowprint.Executable
