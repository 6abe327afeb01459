import Dynarec.Engine.Failure
import Dynarec.Json.Encode
import Dynarec.Memory.Mapping
import Dynarec.Profile.Opcode
import Dynarec.Thread

/-!
JSON notation of errors: the kind and the message. What ends the work of the caller as a whole, and not the one
request, has the kind `panic`.
-/
namespace Dynarec

open Json (entry)

def problem (kind message : String) : Json :=
  .ofFields [entry "error" kind, entry "message" message]

/-- An error that a caller is not to recover from. -/
def panicked (message : String) : Json := problem "panic" message

instance : Encode TranslationError := ⟨fun cause => problem cause.kind cause.message⟩

instance : Encode UnsupportedRegister := ⟨fun cause => encode (TranslationError.unsupportedRegister cause)⟩

instance : Encode Memory.MapError := ⟨fun cause => problem cause.kind cause.message⟩

instance : Encode BadIndex := ⟨fun cause => panicked cause.message⟩

instance : Encode Overflow := ⟨fun stop => panicked stop.message⟩

instance : Encode Profile.TimeOverflow := ⟨fun stop => panicked stop.message⟩

instance : Encode Halt := ⟨fun halt => panicked halt.message⟩

/-- A failed translation names the kind of its cause too. -/
instance : Encode ExecError := ⟨fun error =>
  let json := problem error.kind error.message
  match error with
  | .translate _ cause => json.push "source" cause.kind
  | _ => json⟩

instance : Encode Failure := ⟨fun
  | .error cause => encode cause
  | .halt halt => encode halt⟩

end Dynarec
