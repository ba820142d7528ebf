import ArtifactSync.Artifact
import ArtifactSync.Excludes

/-!
# Project settings

What a project's configuration file can settle, and what holds where it says nothing. Switches of
the command line win over it, once, before anything is built.
-/

namespace ArtifactSync

/-- What is built. -/
structure BuildConfig where
  /-- Whether outputs are of the kind with embedded markup. -/
  tsx : Bool
  deriving DecidableEq, Repr

/-- Which side files are kept, and when. -/
structure SyncConfig where
  git : Bool
  vscode : Bool
  /-- The quiet period before a side file is updated, in milliseconds. -/
  debounceMs : Nat
  deriving DecidableEq, Repr

/-- The compiler that is run. -/
structure CompilerConfig where
  command : String
  args : List String
  deriving DecidableEq, Repr

/-- Which files are no sources. -/
structure DiscoveryConfig where
  exclude : List String
  deriving DecidableEq, Repr

/-- The settings of a project. -/
structure Config where
  build : BuildConfig
  sync : SyncConfig
  compiler : CompilerConfig
  discovery : DiscoveryConfig
  deriving DecidableEq, Repr

namespace Config

/-- The name of the configuration file, at the project root. -/
def fileName : String := "civetman.toml"

/-- The settings of a project that makes none. -/
def defaults : Config where
  build := ⟨false⟩
  sync := ⟨true, true, 1000⟩
  compiler := ⟨"civet", []⟩
  discovery := ⟨Excludes.defaultPatterns⟩

instance : Inhabited Config := ⟨defaults⟩

end Config

/-- The switches of the command line that bear on the mode. -/
structure ModeOverrides where
  tsx : Bool
  noGit : Bool
  noVscode : Bool
  deriving DecidableEq, Repr

/-- The mode that settings and switches come to. -/
def Config.mode (c : Config) (o : ModeOverrides) : Mode :=
  ⟨.ofTsx (c.build.tsx || o.tsx), c.sync.git && !o.noGit, c.sync.vscode && !o.noVscode⟩

end ArtifactSync
