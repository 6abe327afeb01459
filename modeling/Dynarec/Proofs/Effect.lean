/-!
Work that may fail, by itself and on a state, which it runs from to a result and the state it leaves.
-/
namespace Dynarec
namespace Effect

variable {ε σ α β : Type}

theorem bind_eq_ok {first : Except ε α} {next : α → Except ε β} {value : β} :
    (first >>= next) = .ok value ↔ ∃ middle, first = .ok middle ∧ next middle = .ok value := by
  cases first with
  | error error =>
    constructor
    · intro ok
      cases ok
    · rintro ⟨_, ok, _⟩
      cases ok
  | ok middle =>
    constructor
    · intro ok
      exact ⟨middle, rfl, ok⟩
    · rintro ⟨_, same, ok⟩
      cases same
      exact ok

/-- Both halves of work that has a result have one. -/
theorem of_bind {first : Except ε α} {next : α → Except ε β} {value : β} (ok : (first >>= next) = .ok value) :
    ∃ middle, first = .ok middle ∧ next middle = .ok value :=
  bind_eq_ok.mp ok

/-- Work on a list of which no item fails. -/
theorem mapM_ok {items : List α} {work : α → Except ε β} {result : α → β}
    (each : ∀ item ∈ items, work item = .ok (result item)) : items.mapM work = .ok (items.map result) := by
  induction items with
  | nil => rfl
  | cons first rest ih =>
    obtain ⟨own, others⟩ := List.forall_mem_cons.mp each
    rw [List.mapM_cons, own, ih others]
    rfl

theorem mapError_ok {ε' : Type} (change : ε → ε') (value : α) :
    (Except.ok value : Except ε α).mapError change = .ok value := rfl

theorem mapError_error {ε' : Type} (change : ε → ε') (error : ε) :
    (Except.error error : Except ε α).mapError change = .error (change error) := rfl

theorem run_bind (first : ExceptT ε (StateM σ) α) (next : α → ExceptT ε (StateM σ) β) (before : σ) :
    (first >>= next).run before = match first.run before with
      | (.ok value, after) => (next value).run after
      | (.error error, after) => (.error error, after) := by
  simp only [Bind.bind, ExceptT.bind, ExceptT.run, ExceptT.mk, StateT.bind, ExceptT.bindCont]
  rcases first before with ⟨_ | _, _⟩ <;> rfl

/-- Both halves of work that has a result have one, the second from where the first leaves. -/
theorem of_run_bind {first : ExceptT ε (StateM σ) α} {next : α → ExceptT ε (StateM σ) β} {before after : σ}
    {result : β} (ran : (first >>= next).run before = (.ok result, after)) :
    ∃ value middle, first.run before = (.ok value, middle) ∧ (next value).run middle = (.ok result, after) := by
  rw [run_bind] at ran
  rcases step : first.run before with ⟨_ | value, middle⟩
  · rw [step] at ran
    cases ran
  · rw [step] at ran
    exact ⟨value, middle, rfl, ran⟩

theorem run_get (before : σ) : (get : ExceptT ε (StateM σ) σ).run before = (.ok before, before) := rfl

theorem run_modify (change : σ → σ) (before : σ) :
    (modify change : ExceptT ε (StateM σ) Unit).run before = (.ok (), change before) := rfl

theorem run_modifyGet (change : σ → α × σ) (before : σ) :
    (modifyGet change : ExceptT ε (StateM σ) α).run before = (.ok (change before).1, (change before).2) := rfl

/-- Changes made one after another, which nothing stops. -/
theorem run_forM_modify (items : List α) (change : α → σ → σ) (before : σ) :
    (items.forM fun item => (modify (change item) : ExceptT ε (StateM σ) Unit)).run before =
      (.ok (), items.foldl (fun state item => change item state) before) := by
  induction items generalizing before with
  | nil => rfl
  | cons first rest ih =>
    rw [List.forM, run_bind, run_modify]
    exact ih (change first before)

/-- Both come to the same, to a result of the kind or to an error, and leave states that are related. -/
inductive Twins (related : σ → σ → Prop) (kind : α → Prop) : Except ε α × σ → Except ε α × σ → Prop
  | ok {value : α} {after other : σ} : kind value → related after other →
      Twins related kind (.ok value, after) (.ok value, other)
  | error (error : ε) {after other : σ} : related after other → Twins related kind (.error error, after) (.error error, other)

theorem Twins.same {related : σ → σ → Prop} {kind : α → Prop} {left right : Except ε α × σ}
    (twins : Twins related kind left right) : left.1 = right.1 ∧ related left.2 right.2 := by
  cases twins with
  | ok _ related => exact ⟨rfl, related⟩
  | error _ related => exact ⟨rfl, related⟩

theorem Twins.bind {related : σ → σ → Prop} {kind : α → Prop} {kindToo : β → Prop}
    {first firstToo : ExceptT ε (StateM σ) α} {next nextToo : α → ExceptT ε (StateM σ) β} {before other : σ}
    (twins : Twins related kind (first.run before) (firstToo.run other))
    (follows : ∀ value after afterToo, kind value → related after afterToo →
      Twins related kindToo ((next value).run after) ((nextToo value).run afterToo)) :
    Twins related kindToo ((first >>= next).run before) ((firstToo >>= nextToo).run other) := by
  rw [run_bind, run_bind]
  generalize first.run before = left at twins
  generalize firstToo.run other = right at twins
  cases twins with
  | ok kind related => exact follows _ _ _ kind related
  | error error related => exact .error error related

end Effect
end Dynarec
