import Dynarec.Cache
import Dynarec.Proofs.Builder
import Mathlib

/-!
Promotion over whole histories of checks and marks. What a check is answered, where the subroutine stands and how many
checks it has counted are told from the requests that were made of it, in whatever order they came.
-/
namespace Dynarec

inductive Request
  | check | mark
  deriving DecidableEq, Repr

namespace Subroutine

/-- Code of which nothing has been asked yet. Host code is made at tier 1 alone. -/
structure Unasked (subroutine : Subroutine) : Prop where
  promotion : subroutine.promotion = .start subroutine.tier
  host : subroutine.isHost = true → subroutine.tier = .tier1

def ask (subroutine : Subroutine) : Request → Subroutine
  | .check => subroutine.checkPromotion.2
  | .mark => subroutine.markForRejit

def after (subroutine : Subroutine) (history : List Request) : Subroutine := history.foldl ask subroutine

/-- The answer to a check that comes behind a history. -/
def answer (subroutine : Subroutine) (history : List Request) : Bool :=
  (subroutine.after history).checkPromotion.1

/-- Some check of the history was answered with yes. -/
def Granted (subroutine : Subroutine) (history : List Request) : Prop :=
  ∃ front, front ++ [.check] <+: history ∧ subroutine.answer front = true

/-- The checks that come before the first mark. -/
def unmarked (history : List Request) : Nat := (history.takeWhile (· == .check)).length

/-- Where guest code stands behind a history. -/
def standing (subroutine : Subroutine) (history : List Request) : Promotion where
  stage :=
    if .mark ∈ history ∨ subroutine.tier = .tier0 ∧ subroutine.threshold < history.count .check then .pending
    else .of subroutine.tier
  dispatches :=
    if subroutine.tier = .tier0 then min (unmarked history) (subroutine.threshold + 1) else 0

theorem after_snoc (subroutine : Subroutine) (history : List Request) (request : Request) :
    subroutine.after (history ++ [request]) = (subroutine.after history).ask request := by
  unfold after
  rw [List.foldl_append]
  rfl

theorem unmarked_of_not_mem {history : List Request} (none : .mark ∉ history) :
    unmarked history = history.count .check := by
  have checks : ∀ request ∈ history, request = .check := by
    intro request member
    cases request with
    | check => rfl
    | mark => exact absurd member none
  unfold unmarked
  rw [List.takeWhile_eq_self_iff.mpr fun request member => by simp [checks request member],
    List.count_eq_length.mpr fun request member => (checks request member).symm]

theorem unmarked_snoc_of_mem {history : List Request} (marked : .mark ∈ history) (request : Request) :
    unmarked (history ++ [request]) = unmarked history := by
  have short : (history.takeWhile (· == .check)).length ≠ history.length := by
    intro whole
    have all := List.takeWhile_eq_self_iff.mp (List.IsPrefix.eq_of_length (List.takeWhile_prefix _) whole)
    exact absurd (all _ marked) (by decide)
  unfold unmarked
  rw [List.takeWhile_append, if_neg short]

theorem unmarked_mark (history : List Request) : unmarked (history ++ [.mark]) = unmarked history := by
  unfold unmarked
  rw [List.takeWhile_append]
  split
  · next whole => simp [← whole]
  · rfl

section
variable (subroutine : Subroutine) (history : List Request)

theorem standing_marked (marked : .mark ∈ history) : subroutine.standing history =
    ⟨.pending, if subroutine.tier = .tier0 then min (unmarked history) (subroutine.threshold + 1) else 0⟩ := by
  unfold standing
  rw [if_pos (.inl marked)]

/-- A check is answered with yes where a rebuild is due, and counted where tier-0 code is not pending. -/
theorem check_standing : (subroutine.standing history).check subroutine.threshold =
    (decide (.mark ∈ history ∨ subroutine.tier = .tier0 ∧ subroutine.threshold ≤ history.count .check),
      subroutine.standing (history ++ [.check])) := by
  by_cases marked : Request.mark ∈ history
  · have still : Request.mark ∈ history ++ [Request.check] := List.mem_append_left _ marked
    rw [standing_marked _ _ marked, standing_marked _ _ still, unmarked_snoc_of_mem marked]
    simp [Promotion.check, marked]
  · have still : Request.mark ∉ history ++ [Request.check] := by simpa using marked
    have counted : (history ++ [Request.check]).count .check = history.count .check + 1 := by simp
    unfold standing
    rw [unmarked_of_not_mem marked, unmarked_of_not_mem still, counted]
    simp only [marked, still, false_or]
    cases subroutine.tier with
    | tier1 => simp [Promotion.check, Stage.of]
    | tier0 =>
      simp only [true_and, if_true]
      by_cases spent : subroutine.threshold < history.count .check
      · have more : subroutine.threshold < history.count .check + 1 := Nat.lt_succ_of_lt spent
        simp [Promotion.check, spent, more, spent.le]
      · have all : min (history.count .check) (subroutine.threshold + 1) = history.count .check := by omega
        have next : min (history.count .check + 1) (subroutine.threshold + 1) = history.count .check + 1 := by omega
        rw [if_neg spent, all, next]
        simp [Promotion.check, Stage.of]

theorem mark_standing : (subroutine.standing history).mark = subroutine.standing (history ++ [.mark]) := by
  have marked : Request.mark ∈ history ++ [Request.mark] := by simp
  rw [standing_marked _ _ marked, unmarked_mark]
  rfl

theorem granted_snoc (request : Request) : subroutine.Granted (history ++ [request]) ↔
    subroutine.Granted history ∨ request = .check ∧ subroutine.answer history = true := by
  unfold Granted
  constructor
  · rintro ⟨front, within, yes⟩
    rcases List.prefix_concat_iff.mp within with whole | earlier
    · obtain ⟨rfl, last⟩ := List.append_inj' whole rfl
      exact .inr ⟨(List.singleton_inj.mp last).symm, yes⟩
    · exact .inl ⟨front, earlier, yes⟩
  · rintro (⟨front, within, yes⟩ | ⟨rfl, yes⟩)
    · exact ⟨front, within.trans (List.prefix_append _ _), yes⟩
    · exact ⟨history, List.prefix_rfl, yes⟩

end

/-- Only tier-0 code changes when it is checked. -/
theorem checkPromotion_of_stage {subroutine : Subroutine} (staged : subroutine.promotion.stage ≠ .tier0) :
    subroutine.checkPromotion.2 = subroutine := by
  have same : (subroutine.promotion.check subroutine.threshold).2 = subroutine.promotion := by
    unfold Promotion.check
    cases stage : subroutine.promotion.stage with
    | tier0 => exact absurd stage staged
    | pending => rfl
    | tier1 => rfl
  change { subroutine with promotion := (subroutine.promotion.check subroutine.threshold).2 } = subroutine
  rw [same]

namespace Unasked

variable {subroutine : Subroutine} (unasked : subroutine.Unasked)
include unasked

theorem stage_of_host (host : subroutine.isHost = true) : subroutine.promotion.stage = .tier1 := by
  rw [unasked.promotion, unasked.host host]
  rfl

theorem after_host (host : subroutine.isHost = true) (history : List Request) :
    subroutine.after history = subroutine := by
  have still : ∀ request, subroutine.ask request = subroutine := by
    intro request
    cases request with
    | check => exact checkPromotion_of_stage (by simp [unasked.stage_of_host host])
    | mark => exact if_pos host
  induction history using List.reverseRecOn with
  | nil => rfl
  | append_singleton history request ih => rw [after_snoc, ih, still]

theorem after_guest (guest : subroutine.isHost = false) (history : List Request) :
    subroutine.after history = { subroutine with promotion := subroutine.standing history } := by
  induction history using List.reverseRecOn with
  | nil =>
    have start : subroutine.standing [] = subroutine.promotion := by
      rw [unasked.promotion]
      simp [standing, unmarked, Promotion.start]
    rw [start]
    rfl
  | append_singleton history request ih =>
    rw [after_snoc, ih]
    cases request with
    | check =>
      unfold ask checkPromotion
      dsimp only
      rw [check_standing]
    | mark =>
      unfold ask markForRejit
      dsimp only
      rw [guest, mark_standing]
      rfl

theorem answer_guest (guest : subroutine.isHost = false) (history : List Request) :
    subroutine.answer history = true ↔
      .mark ∈ history ∨ subroutine.tier = .tier0 ∧ subroutine.threshold ≤ history.count .check := by
  unfold answer
  rw [unasked.after_guest guest]
  unfold checkPromotion
  dsimp only
  rw [check_standing, decide_eq_true_iff]

theorem answer_host (host : subroutine.isHost = true) (history : List Request) :
    subroutine.answer history = false := by
  unfold answer checkPromotion Promotion.check
  rw [unasked.after_host host, unasked.stage_of_host host]

/-- A rebuild is wanted from the first mark or the first yes on. -/
theorem pending_guest (guest : subroutine.isHost = false) (history : List Request) :
    (subroutine.after history).promotion.stage = .pending ↔ .mark ∈ history ∨ subroutine.Granted history := by
  have wanted : (subroutine.after history).promotion.stage = .pending ↔
      .mark ∈ history ∨ subroutine.tier = .tier0 ∧ subroutine.threshold < history.count .check := by
    rw [unasked.after_guest guest]
    unfold standing
    split
    · next due => exact iff_of_true rfl due
    · next idle => exact iff_of_false (by cases subroutine.tier <;> simp [Stage.of]) idle
  rw [wanted]
  clear wanted
  induction history using List.reverseRecOn with
  | nil => simp [Granted]
  | append_singleton history request ih =>
    rw [granted_snoc, unasked.answer_guest guest]
    cases request with
    | mark => simp
    | check =>
      have same : Request.mark ∈ history ++ [Request.check] ↔ .mark ∈ history := by simp
      have counted : (history ++ [Request.check]).count .check = history.count .check + 1 := by simp
      rw [same, counted, Nat.lt_succ_iff]
      constructor
      · rintro (marked | due)
        · exact .inl marked
        · exact .inr (.inr ⟨rfl, .inr due⟩)
      · rintro (marked | granted | ⟨_, due⟩)
        · exact .inl marked
        · exact (ih.mpr (.inr granted)).imp_right fun spent => ⟨spent.1, spent.2.le⟩
        · exact due

end Unasked
end Subroutine

namespace Cache

/-- A request made of the subroutine that is held under a handle. -/
def ask (cache : Cache) (request : Handle × Request) : Cache :=
  match request.2 with
  | .check => (cache.checkPromotion request.1).2
  | .mark => cache.markForRejit request.1

theorem subroutine?_modify (cache : Cache) (handle other : Handle) (change : Subroutine → Subroutine) :
    (cache.modify handle change).subroutine? other =
      if handle = other then (cache.subroutine? other).map change else cache.subroutine? other := by
  simp [modify, subroutine?, Array.getElem?_modify]

theorem subroutine?_ask (cache : Cache) (handle other : Handle) (request : Request) :
    (cache.ask (handle, request)).subroutine? other =
      if handle = other then (cache.subroutine? other).map (·.ask request) else cache.subroutine? other := by
  cases request with
  | mark => exact cache.subroutine?_modify handle other _
  | check =>
    unfold ask checkPromotion
    dsimp only
    cases held : cache.subroutine? handle with
    | none =>
      dsimp only
      split
      · next same =>
        rw [← same, held]
        rfl
      · rfl
    | some subroutine =>
      dsimp only
      rw [subroutine?_modify]
      split
      · next same =>
        subst same
        rw [held]
        rfl
      · rfl

/-- A subroutine that is held in a cache takes notice of the requests made of it, whatever is asked of others. -/
theorem subroutine?_foldl_ask (requests : List (Handle × Request)) (cache : Cache) (handle : Handle) :
    (requests.foldl ask cache).subroutine? handle = (cache.subroutine? handle).map
      (·.after ((requests.filter (·.1 == handle)).map Prod.snd)) := by
  induction requests generalizing cache with
  | nil => simp [Subroutine.after]
  | cons request rest ih =>
    obtain ⟨asked, request⟩ := request
    rw [List.foldl_cons, ih, subroutine?_ask]
    by_cases same : asked = handle
    · subst same
      simp [Subroutine.after, Function.comp_def]
    · simp [same]

end Cache

theorem Builder.Fresh.unasked {subroutine : Subroutine} {tier : Tier} (fresh : Builder.Fresh subroutine tier) :
    subroutine.Unasked :=
  ⟨by rw [fresh.promotion, fresh.sameTier], fun host => absurd (host.symm.trans fresh.guest) (by decide)⟩

namespace Subroutine

theorem unasked_host (entry : UInt64) (name : String) (params : List Register) (code : Code) :
    (host entry name params code).Unasked := ⟨rfl, fun _ => rfl⟩

/-- Behind any history, a check of guest code is answered with yes exactly if there was a mark, or as many checks as the
threshold of tier-0 code says; the code is pending from the first mark or the first yes on, and stands where its tier says
before; tier-0 code has counted the checks before the first mark, up to the one that came behind its threshold. Host code is
always answered with no and never changes. Held in a cache, the code is told by the requests made of it alone. -/
theorem Unasked.promotion_exact {subroutine : Subroutine} (unasked : subroutine.Unasked) (history : List Request) :
    (subroutine.answer history = true ↔ subroutine.isHost = false ∧
        (.mark ∈ history ∨ subroutine.tier = .tier0 ∧ subroutine.threshold ≤ history.count .check)) ∧
      (subroutine.isHost = true → subroutine.after history = subroutine) ∧
      (subroutine.isHost = false →
        ((subroutine.after history).promotion.stage = .pending ↔ .mark ∈ history ∨ subroutine.Granted history) ∧
        ((subroutine.after history).promotion.stage ≠ .pending →
          (subroutine.after history).promotion.stage = .of subroutine.tier)) ∧
      ((subroutine.after history).promotion.dispatches =
        if subroutine.tier = .tier0 then min (unmarked history) (subroutine.threshold + 1) else 0) ∧
      { subroutine.after history with promotion := subroutine.promotion } = subroutine ∧
      ∀ (cache : Cache) (handle : Handle) (requests : List (Handle × Request)),
        cache.subroutine? handle = some subroutine → (requests.filter (·.1 == handle)).map Prod.snd = history →
          (requests.foldl Cache.ask cache).subroutine? handle = some (subroutine.after history) ∧
            ((requests.foldl Cache.ask cache).checkPromotion handle).1 = subroutine.answer history := by
  have held : ∀ (cache : Cache) (handle : Handle) (requests : List (Handle × Request)),
      cache.subroutine? handle = some subroutine → (requests.filter (·.1 == handle)).map Prod.snd = history →
        (requests.foldl Cache.ask cache).subroutine? handle = some (subroutine.after history) ∧
          ((requests.foldl Cache.ask cache).checkPromotion handle).1 = subroutine.answer history := by
    intro cache handle requests there own
    have now := Cache.subroutine?_foldl_ask requests cache handle
    rw [own, there] at now
    refine ⟨now, ?_⟩
    unfold Cache.checkPromotion
    rw [now]
    rfl
  cases guest : subroutine.isHost with
  | true =>
    have still := unasked.after_host guest history
    refine ⟨?_, fun _ => still, nofun, ?_, by rw [still], held⟩
    · rw [unasked.answer_host guest]
      simp
    · rw [still, unasked.promotion, unasked.host guest]
      rfl
  | false =>
    have now := unasked.after_guest guest history
    refine ⟨?_, nofun, fun _ => ⟨unasked.pending_guest guest history, ?_⟩, by rw [now]; rfl, by rw [now], held⟩
    · rw [unasked.answer_guest guest]
      simp
    · rw [now]
      unfold standing
      split
      · exact fun waits => absurd rfl waits
      · exact fun _ => rfl

/-- A mark comes before the threshold is reached, and the checks behind it are not counted. Host code takes no notice. -/
theorem promotion_exact_early :
    (∃ build, ({ threshold := 2 } : Builder).build (fun _ => false) 0x2000 ⟨[⟨0x2000, []⟩]⟩ .tier0 "Sub" = .ok build ∧
      build.subroutine.Unasked ∧ build.subroutine.answer [.check] = false ∧
        build.subroutine.answer [.check, .check] = true ∧
          (build.subroutine.after [.check, .mark, .check, .check]).promotion = ⟨.pending, 1⟩) ∧
      (host 0x3000 "sum" [] (.probe (.const 0))).answer [.check, .mark] = false := by
  have accepts : ({ threshold := 2 } : Builder).Accepts ⟨[⟨0x2000, []⟩]⟩ := ⟨by decide, by decide, by decide, by decide⟩
  obtain ⟨build, _, made, _⟩ := Builder.build_ok _ (fun _ => false) 0x2000 .tier0 "Sub" accepts
  have fresh := Builder.fresh_build made
  have tier := fresh.sameTier
  have threshold := Builder.threshold_build made
  obtain ⟨early, _⟩ := fresh.unasked.promotion_exact [.check]
  obtain ⟨due, _⟩ := fresh.unasked.promotion_exact [.check, .check]
  obtain ⟨_, _, waits, counted, _⟩ := fresh.unasked.promotion_exact [.check, .mark, .check, .check]
  have stage := (waits fresh.guest).1.mpr (.inl (by decide))
  obtain ⟨hosted, _⟩ := (unasked_host 0x3000 "sum" [] (.probe (.const 0))).promotion_exact [.check, .mark]
  refine ⟨⟨build, made, fresh.unasked, ?_, ?_, ?_⟩, ?_⟩
  · rw [← Bool.not_eq_true, early, threshold]
    simp
  · rw [due, threshold]
    exact ⟨fresh.guest, .inr ⟨tier, by decide⟩⟩
  · rw [tier, threshold] at counted
    exact congrArg₂ Promotion.mk stage counted
  · rw [← Bool.not_eq_true, hosted]
    simp [host]

end Subroutine
end Dynarec
