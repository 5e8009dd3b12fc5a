/-
  Flowprint.Layout
  ────────────────────────────────
  The two files of a search index: the index itself, and beside it the sidecar that names the
  functions in it.  Without a path of its own the sidecar is the index path followed by `.meta`.
-/

namespace Flowprint

/-- The paths of an index. -/
structure Layout where
  indexPath : String
  metadataPath : String
  deriving Repr, DecidableEq

/-- The paths of an index whose sidecar may have a path of its own. -/
def Layout.of (indexPath : String) (metadataPath : Option String) : Layout :=
  ⟨indexPath, metadataPath.getD (indexPath ++ ".meta")⟩

end Flowprint
