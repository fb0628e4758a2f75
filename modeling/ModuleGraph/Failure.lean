import ModuleGraph.Fragment
import ModuleGraph.Resolution
import ModuleGraph.Statement.Fault

/-!
# Failures of modules

What can go wrong with a module, by the phase in which it does: its resource cannot be had, one of
its requests cannot be resolved, an import has no target, or its body fails. A fault names the key
at which things went wrong, which need not be the module that it is reported for.
-/

namespace ModuleGraph

/-! ## Loading -/

/-- Why the text of a resource cannot be had. -/
inductive FetchFault where
  | notFound (url : String)
  | unreadable (url message : String)
  | http (url : String) (status : Nat)
  | network (url message : String)
  | unsupportedScheme (url scheme : String)
  | remoteDisabled (url : String)
deriving DecidableEq, Repr

/-- The message of a fetch fault. -/
def FetchFault.message : FetchFault → String
  | .notFound url => "Cannot find module '" ++ url ++ "'"
  | .unreadable url message => "Failed to read " ++ url ++ ": " ++ message
  | .http url status => "Failed to fetch " ++ url ++ ": HTTP " ++ toString status
  | .network url message => "Network error fetching " ++ url ++ ": " ++ message
  | .unsupportedScheme url scheme => "Unsupported URL scheme '" ++ scheme ++ "' in " ++ url
  | .remoteDisabled url => "Remote module " ++ url ++ " not allowed (set allow_remote = true)"

/-- Why a URL gives no modules. -/
inductive ResourceFault where
  | fetch (fault : FetchFault)
  | parse (fault : SyntaxError)
  | extract (fault : ExtractionFault)
deriving DecidableEq, Repr

/-- The message of a resource fault. -/
def ResourceFault.message : ResourceFault → String
  | .fetch fault => fault.message
  | .parse fault => fault.message
  | .extract fault => fault.message

/-- Why a module cannot be loaded. -/
inductive LoadCause where
  | resolve (fault : ResolveFault)
  | resource (fault : ResourceFault)
deriving DecidableEq, Repr

namespace LoadCause

/-- The stage of loading that a cause belongs to. -/
def stage : LoadCause → String
  | .resolve _ => "resolve"
  | .resource (.fetch _) => "fetch"
  | .resource (.parse _) => "parse"
  | .resource (.extract _) => "extract"

/-- The message of a cause. -/
def message : LoadCause → String
  | .resolve fault => fault.message
  | .resource fault => fault.message

end LoadCause

/-- A cause with the module where it arose. -/
structure LoadFault where
  key : ModuleKey
  cause : LoadCause
deriving DecidableEq, Repr

/-- The message of a load fault. -/
def LoadFault.message (f : LoadFault) : String :=
  "Failed to load " ++ f.key.text ++ " (" ++ f.cause.stage ++ "): " ++ f.cause.message

/-! ## Linking -/

/-- Why an export name has no single target. -/
inductive ExportFault where
  | missing
  | ambiguous
  | circular
deriving DecidableEq, Repr

/-- Why a module cannot be instantiated. -/
inductive LinkFault where
  | notLoaded (key : ModuleKey)
  | unresolved (cause : ExportFault) (importer target : ModuleKey) (name : String)
deriving DecidableEq, Repr

/-- The message of a link fault. -/
def LinkFault.message : LinkFault → String
  | .notLoaded key => "Module " ++ key.text ++ " is not loaded"
  | .unresolved .missing importer target name =>
    "SyntaxError: The requested module " ++ target.text ++ " does not provide an export named '"
      ++ name ++ "' (imported by " ++ importer.text ++ ")"
  | .unresolved .ambiguous importer target name =>
    "SyntaxError: The requested module " ++ target.text
      ++ " contains conflicting star exports for name '" ++ name ++ "' (imported by "
      ++ importer.text ++ ")"
  | .unresolved .circular importer target name =>
    "SyntaxError: Detected cycle while resolving name '" ++ name ++ "' in " ++ target.text
      ++ " (imported by " ++ importer.text ++ ")"

/-! ## Evaluation -/

/-- Why a module cannot be evaluated. -/
inductive EvalFault where
  | notInstantiated (key : ModuleKey)
  | uninitialized (key : ModuleKey) (name : String)
  | thrown (key : ModuleKey) (message : String)
deriving DecidableEq, Repr

/-- The message of an evaluation fault. -/
def EvalFault.message : EvalFault → String
  | .notInstantiated key => "Module " ++ key.text ++ " is not instantiated"
  | .uninitialized key name =>
    "ReferenceError: Cannot access '" ++ name ++ "' before initialization (in " ++ key.text ++ ")"
  | .thrown key message => "Uncaught " ++ message ++ " (in " ++ key.text ++ ")"

/-! ## Failed modules -/

/-- The failure that a failed module keeps. -/
inductive ModuleFailure where
  | load (fault : LoadFault)
  | link (fault : LinkFault)
  | eval (fault : EvalFault)
deriving DecidableEq, Repr

/-- The message of a failure. -/
def ModuleFailure.message : ModuleFailure → String
  | .load fault => fault.message
  | .link fault => fault.message
  | .eval fault => fault.message

end ModuleGraph
