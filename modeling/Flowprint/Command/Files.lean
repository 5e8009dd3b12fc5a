/-
  Flowprint.Command.Files
  ────────────────────────────────
  The files that a command may read or write, as far as they are known from its settings.
-/
import Flowprint.Command.Run

namespace Flowprint.Command

/-- The weight table of some hasher settings. -/
def weightFiles (tuning : Tuning) (config : HasherConfig) : List String :=
  (tuning.apply config).weightsPath.toList

/-- The files that the path of an index may lead to. -/
def indexFiles (path : String) : List String :=
  match Index.Locator.ofPath? .create path with
  | some (.file name _) => [path, name]
  | _ => [path]

/-- The annotations of an index. -/
def metadataFile (index : String) (config : SearchConfig) : String :=
  (Layout.of index config.metadataPath).metadataPath

/-- The files of a command. -/
def files (config : SearchConfig) : Command → List String
  | .hash graphs tuning _ => weightFiles tuning config.hasher ++ graphs
  | .features graph tuning _ => weightFiles tuning config.hasher ++ [graph]
  | .dot graph => [graph]
  | .executable file => [file]
  | .create index _ _ => indexFiles (index.getD config.indexPath)
  | .add index graphs _ binary _ _ tuning =>
    indexFiles (index.getD config.indexPath) ++ weightFiles tuning config.hasher
      ++ binary.toList ++ graphs
  | .query index graph _ tuning _ =>
    let path := index.getD config.indexPath
    indexFiles path ++ metadataFile path config :: graph :: weightFiles tuning config.hasher
  | .info index _ => indexFiles (index.getD config.indexPath)
  | .grow index _ => indexFiles (index.getD config.indexPath)
  | .dump index _ _ => indexFiles (index.getD config.indexPath)
  | .annotate index _ _ _ _ _ =>
    let path := metadataFile (index.getD config.indexPath) config
    [path, MetadataStore.beside path]

/-- The file with the settings of a command line. -/
def Invocation.configFiles : Invocation → List String
  | .version => []
  | .call config _ => config.toList

/-- The files of a command line, its settings read from a disk. -/
def Invocation.files (disk : Disk) : Invocation → List String
  | .version => []
  | .call config command =>
    match (settings config).run disk with
    | (.ok config, _) => command.files config
    | (.error _, _) => []

end Flowprint.Command
