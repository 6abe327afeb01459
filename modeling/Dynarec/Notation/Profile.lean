import Dynarec.Config
import Dynarec.Json.Decode
import Dynarec.Notation.Error
import Dynarec.Profile.Report

/-!
JSON notation of profiles, reports and configurations. A time is a count of nanoseconds, or a pair of seconds
and nanoseconds; it is written as a decimal text.
-/
namespace Dynarec

open Json (entry)

instance : Decode Backend := ⟨decodeNamed Backend.all Backend.name⟩

instance : Encode Config := ⟨fun config =>
  .ofFields [entry "tier1_threshold" config.threshold, entry "code_size_warning_threshold" config.bulk,
    entry "backend" config.backend.title, entry "introspection" config.introspection,
    entry "cpu_trace" config.trace]⟩

namespace Profile

structure Time where
  nanoseconds : Nat

instance : Decode Time := ⟨fun
  | .array [seconds, rest] => return ⟨(← decode seconds) * 1000000000 + (← decode rest)⟩
  | json => return ⟨← decode json⟩⟩

instance : Encode Time := ⟨fun time => encode (toString time.nanoseconds)⟩

instance : Encode OpcodeKey := ⟨fun key =>
  .ofFields [entry "emitter" key.emitter, entry "form" key.form]⟩

instance : Encode OpcodeProfile := ⟨fun profile =>
  .ofFields [entry "kept" profile.times.size, entry "occurrences" profile.occurrences,
    entry "sizes" profile.sizes.toList, entry "max" profile.maxSize,
    entry "avg" (profile.average.map Time.mk), entry "first" (profile.times[0]?.map Time.mk),
    entry "last" (profile.times.back?.map Time.mk)]⟩

instance : Encode SubroutineTimes := ⟨fun times =>
  .ofFields [entry "tier0" (times.tier0.map Time.mk), entry "tier1" (times.tier1.map Time.mk),
    entry "underlying" (times.backend.map Time.mk), entry "execution" (times.execution.map Time.mk),
    entry "count" times.count]⟩

/-- The observation that four items from an index on describe; a missing time was not observed. -/
def observation (parts : Parts) (index : Nat) : Decoded SubroutineTimes := do
  let time (offset : Nat) : Decoded (Option Nat) :=
    return (← parts.getD (index + offset) (none : Option Time)).map Time.nanoseconds
  return .observe (← time 0) (← time 1) (← time 2) (← time 3)

/-- The kinds of instruction in the order of their texts, with their sizes. -/
def Tables.opcodesJson (tables : Tables) : List Json :=
  tables.sortedOpcodes.map fun (key, profile) =>
    .array [encode key, encode profile.occurrences, encode profile.sizes.toList]

instance : Encode OpcodeRow := ⟨fun row =>
  .ofFields [entry "opcode" row.opcode, entry "occurrences" row.occurrences,
    entry "max_generated_ops" row.maxSize, entry "average_emit_time_ns" row.average]⟩

instance : Encode SubroutineRow := ⟨fun row =>
  .ofFields [entry "address" row.address.toNat, entry "tier0_jit_time_us" row.tier0,
    entry "tier1_jit_time_us" row.tier1, entry "underlying_jit_time_us" row.backend,
    entry "execution_time_us" row.execution, entry "execution_count" row.count]⟩

/-- A report with the run time in milliseconds. -/
def Report.toJson (report : Report) (runTime : Nat) : Json :=
  .ofFields [entry "run_time_ms" runTime, entry "by_frequency" report.byFrequency,
    entry "by_size" report.bySize, entry "by_emit_time" report.byTime,
    entry "by_jit_time" report.byBackend]

end Profile
end Dynarec
