import ComponentRegistry.Registry.Generated

/-! Two sets of components with two types each: one made by hand, and the one that a generated
registry has, with its typed getters. -/

namespace ComponentRegistry.Sample

structure Logger where
  text : String
  deriving DecidableEq, Repr

structure Clock where
  time : Int
  deriving DecidableEq, Repr

inductive Device where
  | logger (logger : Logger)
  | clock (clock : Clock)
  deriving DecidableEq, Repr

namespace Device

instance : ComponentSet Device where
  typeName
    | logger _ => "Logger"
    | clock _ => "Clock"

instance : Member Logger Device where
  embed := logger
  project
    | logger l => some l
    | clock _ => none
  project_embed _ := rfl
  embed_project {c t} h := by cases c <;> simp_all

instance : Member Clock Device where
  embed := clock
  project
    | logger _ => none
    | clock c => some c
  project_embed _ := rfl
  embed_project {c t} h := by cases c <;> simp_all

def shown : Device → String
  | logger l => "Logger(Logger(" ++ Text.shown l.text ++ "))"
  | clock c => "Clock(Clock(" ++ toString c.time ++ "))"

end Device

/-- A logger that puts a mark before what it is given. -/
structure TestLoggerComponent where
  mark : String
  deriving DecidableEq, Repr

namespace TestLoggerComponent

def format (logger : TestLoggerComponent) (message : String) : String :=
  "[" ++ logger.mark ++ "] " ++ message

def shown (logger : TestLoggerComponent) : String :=
  "TestLoggerComponent \x7b prefix: " ++ Text.shown logger.mark ++ " \x7d"

end TestLoggerComponent

structure SystemClock where
  deriving DecidableEq, Repr

/-- The components of a generated registry. -/
inductive AnyComponent where
  | testLoggerComponent (logger : TestLoggerComponent)
  | systemClock (clock : SystemClock)
  deriving DecidableEq, Repr

namespace AnyComponent

instance : ComponentSet AnyComponent where
  typeName
    | testLoggerComponent _ => "TestLoggerComponent"
    | systemClock _ => "SystemClock"

instance : Member TestLoggerComponent AnyComponent where
  embed := testLoggerComponent
  project
    | testLoggerComponent l => some l
    | systemClock _ => none
  project_embed _ := rfl
  embed_project {c t} h := by cases c <;> simp_all

instance : Member SystemClock AnyComponent where
  embed := systemClock
  project
    | testLoggerComponent _ => none
    | systemClock c => some c
  project_embed _ := rfl
  embed_project {c t} h := by cases c <;> simp_all

end AnyComponent

/-- The generated registry of these components, with its typed getters. -/
abbrev GeneratedRegistry := Registry.Generated AnyComponent

namespace GeneratedRegistry

def empty : GeneratedRegistry := Registry.Generated.empty

def getTestLoggerComponent? (r : GeneratedRegistry) (name : String) :
    Option TestLoggerComponent :=
  r.get? TestLoggerComponent name

def getSystemClock? (r : GeneratedRegistry) (name : String) : Option SystemClock :=
  r.get? SystemClock name

end GeneratedRegistry

end ComponentRegistry.Sample
