/-
  Flowprint.Version
  ────────────────────────────────
  The version that the library and its command line report.
-/

namespace Flowprint

/-- The version of the library. -/
def version : String := "0.1.0"

end Flowprint
