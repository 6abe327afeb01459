import Dynarec.Config
import Dynarec.Json.Reader

/-!
Configurations read from JSON: an object with some of the settings by name, or a list with the first few of
them in order. Settings not given keep their defaults, names that are no setting's are skipped, and a setting
must not be given twice.
-/
namespace Dynarec.Config

inductive Setting
  | threshold | bulk | backend | introspection | trace
  deriving DecidableEq, Repr

namespace Setting

/-- All settings, in the order of a list. -/
def all : List Setting := [.threshold, .bulk, .backend, .introspection, .trace]

def name : Setting → String
  | .threshold => "tier1_threshold"
  | .bulk => "code_size_warning_threshold"
  | .backend => "backend"
  | .introspection => "introspection"
  | .trace => "cpu_trace"

/-- A backend by its name, which may stand as a key without a value. -/
def backend? : Json → Option Backend
  | .string (some name) | .object [(some name, .null)] => Backend.all.find? (·.name == name)
  | _ => none

/-- Sets a setting to a value of its kind. Thresholds of dispatches have 32 bits. -/
def assign? (setting : Setting) (config : Config) (value : Json) : Option Config :=
  match setting, value with
  | .threshold, value => (value.below? 0x100000000).map fun threshold => { config with threshold }
  | .bulk, value => (value.below? 0x10000000000000000).map fun bulk => { config with bulk }
  | .backend, value => (backend? value).map fun backend => { config with backend }
  | .introspection, .bool on => some { config with introspection := on }
  | .trace, .bool on => some { config with trace := on }
  | _, _ => none

end Setting

/-- Applies the fields of an object, none twice. -/
def ofFields? (config : Config) (given : List Setting) : List (Option String × Json) → Option Config
  | [] => some config
  | (none, _) :: _ => none
  | (some key, value) :: rest =>
    match Setting.all.find? (·.name == key) with
    | none => config.ofFields? given rest
    | some setting =>
      if given.contains setting then none
      else do (← setting.assign? config value).ofFields? (setting :: given) rest

def ofJson? : Json → Option Config
  | .object fields => ofFields? {} [] fields
  | .array items =>
    if items.length ≤ Setting.all.length then
      (Setting.all.zip items).foldlM (fun config (setting, value) => setting.assign? config value) {}
    else none
  | _ => none

def read? (text : String) : Option Config := (Json.read? text.toList).bind ofJson?

end Dynarec.Config
