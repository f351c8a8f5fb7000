import Mathlib.Data.List.Forall2

/-! Successful computations that may fail. A sequence of them succeeds exactly when every member
does, and then the results stand in the order of the members. -/

namespace FilterSql

variable {α β γ ε ε' : Type}

theorem bind_eq_ok {result : Except ε α} {next : α → Except ε β} {value : β} :
    result >>= next = .ok value ↔ ∃ middle, result = .ok middle ∧ next middle = .ok value := by
  cases result <;> simp [bind, Except.bind]

theorem bind_eq_error {result : Except ε α} {next : α → Except ε β} {fault : ε} :
    result >>= next = .error fault ↔
      result = .error fault ∨ ∃ middle, result = .ok middle ∧ next middle = .error fault := by
  cases result <;> simp [bind, Except.bind]

theorem map_eq_ok {result : Except ε α} {f : α → β} {value : β} :
    result.map f = .ok value ↔ ∃ middle, result = .ok middle ∧ f middle = value := by
  cases result <;> simp [Except.map]

theorem map_eq_error {result : Except ε α} {f : α → β} {fault : ε} :
    result.map f = .error fault ↔ result = .error fault := by
  cases result <;> simp [Except.map]

theorem mapError_eq_ok {result : Except ε α} {f : ε → ε'} {value : α} :
    result.mapError f = .ok value ↔ result = .ok value := by
  cases result <;> simp [Except.mapError]

theorem pure_eq_ok {value value' : α} :
    (pure value : Except ε α) = .ok value' ↔ value = value' := by
  simp [pure, Except.pure]

theorem pure_ne_error {value : α} {fault : ε} : (pure value : Except ε α) ≠ .error fault := by
  simp [pure, Except.pure]

theorem bind_pure_eq_map {result : Except ε α} {f : α → β} :
    (result >>= fun value => pure (f value)) = result.map f := by
  cases result <;> rfl

theorem map_map (result : Except ε α) (f : α → β) (g : β → γ) :
    (result.map f).map g = result.map (g ∘ f) := by
  cases result <;> rfl

theorem exists_map_eq_ok {result : Except ε α} {f : α → β} :
    (∃ value, result.map f = .ok value) ↔ ∃ value, result = .ok value := by
  cases result <;> simp [Except.map]

theorem mapM_eq_ok {f : α → Except ε β} {inputs : List α} {outputs : List β} :
    inputs.mapM f = .ok outputs ↔
      List.Forall₂ (fun input output => f input = .ok output) inputs outputs := by
  induction inputs generalizing outputs with
  | nil => simp [pure, Except.pure, eq_comm]
  | cons input inputs ih =>
      rw [List.mapM_cons]
      constructor
      · intro h
        obtain ⟨output, houtput, h⟩ := bind_eq_ok.1 h
        obtain ⟨rest, hrest, h⟩ := bind_eq_ok.1 h
        rw [← pure_eq_ok.1 h]
        exact .cons houtput (ih.1 hrest)
      · rintro (_ | ⟨houtput, hrest⟩)
        exact bind_eq_ok.2 ⟨_, houtput, bind_eq_ok.2 ⟨_, ih.2 hrest, rfl⟩⟩

theorem forall₂_of_mapM {R : α → β → Prop} {f : α → Except ε β} {inputs : List α}
    {outputs : List β} (hstep : ∀ input ∈ inputs, ∀ output, f input = .ok output → R input output)
    (h : inputs.mapM f = .ok outputs) : List.Forall₂ R inputs outputs := by
  rw [mapM_eq_ok] at h
  induction h with
  | nil => exact .nil
  | cons houtput _ ih =>
      rw [List.forall_mem_cons] at hstep
      exact .cons (hstep.1 _ houtput) (ih hstep.2)

/-- What a sequence fails with, one of its members fails with. -/
theorem exists_mem_of_mapM_eq_error {f : α → Except ε β} {inputs : List α} {fault : ε}
    (h : inputs.mapM f = .error fault) : ∃ input ∈ inputs, f input = .error fault := by
  induction inputs with
  | nil => simp [pure, Except.pure] at h
  | cons input inputs ih =>
      rw [List.mapM_cons] at h
      cases hinput : f input with
      | error found =>
          rw [hinput] at h
          obtain rfl := Except.error.inj h
          exact ⟨input, List.mem_cons_self, hinput⟩
      | ok output =>
          cases hinputs : inputs.mapM f with
          | error found =>
              rw [hinput, hinputs] at h
              obtain rfl := Except.error.inj h
              obtain ⟨other, hother, hfault⟩ := ih hinputs
              exact ⟨other, List.mem_cons_of_mem _ hother, hfault⟩
          | ok outputs =>
              rw [hinput, hinputs] at h
              simp [bind, Except.bind, pure, Except.pure] at h

theorem mapM_eq_some {f : α → Option β} {inputs : List α} {outputs : List β} :
    inputs.mapM f = some outputs ↔
      List.Forall₂ (fun input output => f input = some output) inputs outputs := by
  induction inputs generalizing outputs with
  | nil => simp [eq_comm]
  | cons input inputs ih =>
      rw [List.mapM_cons]
      constructor
      · intro h
        obtain ⟨output, houtput, h⟩ := Option.bind_eq_some_iff.1 h
        obtain ⟨rest, hrest, h⟩ := Option.bind_eq_some_iff.1 h
        rw [← Option.some.inj h]
        exact .cons houtput (ih.1 hrest)
      · rintro (_ | ⟨houtput, hrest⟩)
        exact Option.bind_eq_some_iff.2
          ⟨_, houtput, Option.bind_eq_some_iff.2 ⟨_, ih.2 hrest, rfl⟩⟩

/-- Steps that commute with a change of their inputs and outputs do so one after the other. -/
theorem mapM_map_eq_ok {f g : α → Except ε β} {change : α → α} {change' : β → β} {inputs : List α}
    {outputs : List β}
    (hstep : ∀ input ∈ inputs, ∀ output, f input = .ok output →
      g (change input) = .ok (change' output))
    (h : inputs.mapM f = .ok outputs) :
    (inputs.map change).mapM g = .ok (outputs.map change') := by
  rw [mapM_eq_ok] at h ⊢
  induction h with
  | nil => exact .nil
  | cons houtput h ih =>
      rw [List.forall_mem_cons] at hstep
      exact .cons (hstep.1 _ houtput) (ih hstep.2)

/-- Steps that differ by a change of their outputs do so one after the other. -/
theorem mapM_eq_map {f : α → Except ε β} {g : α → Except ε γ} {change : β → γ}
    {inputs : List α} (h : ∀ input ∈ inputs, g input = (f input).map change) :
    inputs.mapM g = (inputs.mapM f).map (List.map change) := by
  induction inputs with
  | nil => rfl
  | cons input inputs ih =>
      rw [List.forall_mem_cons] at h
      rw [List.mapM_cons, List.mapM_cons, h.1, ih h.2]
      cases f input with
      | error fault => rfl
      | ok output => cases inputs.mapM f <;> rfl

theorem exists_forall₂ {R : α → β → Prop} {inputs : List α}
    (h : ∀ input ∈ inputs, ∃ output, R input output) :
    ∃ outputs, List.Forall₂ R inputs outputs := by
  induction inputs with
  | nil => exact ⟨[], .nil⟩
  | cons input inputs ih =>
      rw [List.forall_mem_cons] at h
      obtain ⟨output, houtput⟩ := h.1
      obtain ⟨outputs, houtputs⟩ := ih h.2
      exact ⟨output :: outputs, .cons houtput houtputs⟩

theorem flatMap_of_forall₂ {R : α → β → Prop} {inputs : List α} {outputs : List β}
    {f : α → List γ} {g : β → List γ} (h : List.Forall₂ R inputs outputs)
    (hstep : ∀ input ∈ inputs, ∀ output, R input output → g output = f input) :
    outputs.flatMap g = inputs.flatMap f := by
  induction h with
  | nil => rfl
  | cons hR h ih =>
      rw [List.forall_mem_cons] at hstep
      rw [List.flatMap_cons, List.flatMap_cons, hstep.1 _ hR, ih hstep.2]

theorem exists_mem_of_forall₂ {R : α → β → Prop} {inputs : List α} {outputs : List β}
    (h : List.Forall₂ R inputs outputs) {output : β} (houtput : output ∈ outputs) :
    ∃ input ∈ inputs, R input output := by
  induction h with
  | nil => simp at houtput
  | cons hR h ih =>
      rcases List.mem_cons.1 houtput with rfl | houtput
      · exact ⟨_, by simp, hR⟩
      · obtain ⟨input, hinput, hinputR⟩ := ih houtput
        exact ⟨input, List.mem_cons_of_mem _ hinput, hinputR⟩

theorem exists_mapM_eq_ok {f : α → Except ε β} {inputs : List α} :
    (∃ outputs, inputs.mapM f = .ok outputs) ↔
      ∀ input ∈ inputs, ∃ output, f input = .ok output := by
  constructor
  · rintro ⟨outputs, houtputs⟩ input hinput
    obtain ⟨output, -, houtput⟩ := exists_mem_of_forall₂ (mapM_eq_ok.1 houtputs).flip hinput
    exact ⟨output, houtput⟩
  · intro h
    obtain ⟨outputs, houtputs⟩ := exists_forall₂ h
    exact ⟨outputs, mapM_eq_ok.2 houtputs⟩

/-- What a sequence fails with is the fault of the first member that fails. -/
theorem mapM_eq_error {f : α → Except ε β} {inputs : List α} {fault : ε} :
    inputs.mapM f = .error fault ↔
      ∃ before input after, inputs = before ++ input :: after ∧
        (∀ other ∈ before, ∃ value, f other = .ok value) ∧ f input = .error fault := by
  induction inputs with
  | nil => simp [pure, Except.pure]
  | cons input inputs ih =>
      rw [List.mapM_cons, bind_eq_error]
      constructor
      · rintro (hinput | ⟨value, hvalue, h⟩)
        · exact ⟨[], input, inputs, rfl, by simp, hinput⟩
        · rw [bind_pure_eq_map, map_eq_error, ih] at h
          obtain ⟨before, found, after, rfl, hbefore, hfound⟩ := h
          have hbefore' : ∀ other ∈ input :: before, ∃ value, f other = .ok value :=
            List.forall_mem_cons.2 ⟨⟨value, hvalue⟩, hbefore⟩
          exact ⟨input :: before, found, after, rfl, hbefore', hfound⟩
      · rintro ⟨before, found, after, hinputs, hbefore, hfound⟩
        cases before with
        | nil =>
            obtain ⟨rfl, -⟩ := List.cons.inj hinputs
            exact .inl hfound
        | cons first before =>
            obtain ⟨rfl, rfl⟩ := List.cons.inj hinputs
            rw [List.forall_mem_cons] at hbefore
            obtain ⟨value, hvalue⟩ := hbefore.1
            refine .inr ⟨value, hvalue, ?_⟩
            rw [bind_pure_eq_map, map_eq_error, ih]
            exact ⟨before, found, after, rfl, hbefore.2, hfound⟩

/-- Steps that each read something and then act on a state: all is read before anything is done. -/
theorem foldlM_eq_map_foldl {σ : Type} {step : σ → α → Except ε σ} {read : α → Except ε β}
    {act : σ → β → σ} (hstep : ∀ state input, step state input = (read input).map (act state))
    (inputs : List α) (state : σ) :
    inputs.foldlM step state = (inputs.mapM read).map (List.foldl act state) := by
  induction inputs generalizing state with
  | nil => rfl
  | cons input inputs ih =>
      rw [List.foldlM_cons, List.mapM_cons, hstep]
      cases read input with
      | error fault => rfl
      | ok value =>
          show inputs.foldlM step (act state value) = _
          rw [ih]
          cases inputs.mapM read <;> rfl

theorem mem_iff_of_mapM {f : α → Except ε β} {inputs : List α} {outputs : List β}
    (h : inputs.mapM f = .ok outputs) {output : β} :
    output ∈ outputs ↔ ∃ input ∈ inputs, f input = .ok output := by
  rw [mapM_eq_ok] at h
  constructor
  · exact exists_mem_of_forall₂ h
  · rintro ⟨input, hinput, houtput⟩
    obtain ⟨found, hfound, hinput⟩ := exists_mem_of_forall₂ h.flip hinput
    rwa [Except.ok.inj (houtput.symm.trans hinput)]

theorem exists_mem_of_forall₂_zipIdx {R : α × Nat → β → Prop} {inputs : List α}
    {outputs : List β} {start : Nat} (h : List.Forall₂ R (inputs.zipIdx start) outputs) :
    ∀ output ∈ outputs.zipIdx start, ∃ input ∈ inputs, R (input, output.2) output.1 := by
  induction outputs generalizing inputs start with
  | nil => simp
  | cons output outputs ih =>
      cases inputs with
      | nil => cases h
      | cons input inputs =>
          rw [List.zipIdx_cons, List.forall₂_cons] at h
          intro indexed hindexed
          rw [List.zipIdx_cons, List.mem_cons] at hindexed
          rcases hindexed with rfl | hindexed
          · exact ⟨input, by simp, h.1⟩
          · obtain ⟨other, hother, hR⟩ := ih h.2 indexed hindexed
            exact ⟨other, List.mem_cons_of_mem _ hother, hR⟩

theorem exists_mem_zipIdx {value : α} {values : List α} (h : value ∈ values) :
    ∃ index, (value, index) ∈ values.zipIdx := by
  obtain ⟨index, hindex, rfl⟩ := List.getElem_of_mem h
  exact ⟨index, by simp [List.mk_mem_zipIdx_iff_getElem?]⟩

/-! ### Two computations -/

variable {α' β' κ : Type}

/-- The second computation ends like the first: with the changed result, or with a fault of the same
kind. -/
inductive EndsLike (change : α → α') (kind : ε → κ) : Except ε α → Except ε α' → Prop where
  | ok (value : α) : EndsLike change kind (.ok value) (.ok (change value))
  | error {fault fault' : ε} (h : kind fault = kind fault') :
      EndsLike change kind (.error fault) (.error fault')

namespace EndsLike

variable {change : α → α'} {kind : ε → κ} {result : Except ε α} {result' : Except ε α'}

theorem refl (result : Except ε α) : EndsLike id kind result result := by
  cases result with
  | ok value => exact .ok value
  | error fault => exact .error rfl

theorem bind {change' : β → β'} {next : α → Except ε β} {next' : α' → Except ε β'}
    (h : EndsLike change kind result result')
    (hnext : ∀ value, result = .ok value →
      EndsLike change' kind (next value) (next' (change value))) :
    EndsLike change' kind (result >>= next) (result' >>= next') := by
  cases h with
  | ok value => exact hnext value rfl
  | error h => exact .error h

theorem map {change' : β → β'} {f : α → β} {f' : α' → β'}
    (h : EndsLike change kind result result')
    (hf : ∀ value, change' (f value) = f' (change value)) :
    EndsLike change' kind (result.map f) (result'.map f') := by
  cases h with
  | ok value =>
      rw [Except.map, Except.map, ← hf]
      exact .ok (f value)
  | error h => exact .error h

theorem mapError {κ' : Type} {kind' : ε' → κ'} {f f' : ε → ε'}
    (h : EndsLike change kind result result')
    (hf : ∀ fault fault', kind fault = kind fault' → kind' (f fault) = kind' (f' fault')) :
    EndsLike change kind' (result.mapError f) (result'.mapError f') := by
  cases h with
  | ok value => exact .ok value
  | error h => exact .error (hf _ _ h)

theorem mapM {γ' : Type} {changeInput : α → α'} {change : γ → γ'} {f : α → Except ε γ}
    {f' : α' → Except ε γ'} {inputs : List α}
    (h : ∀ input ∈ inputs, EndsLike change kind (f input) (f' (changeInput input))) :
    EndsLike (List.map change) kind (inputs.mapM f) ((inputs.map changeInput).mapM f') := by
  induction inputs with
  | nil => exact .ok []
  | cons input inputs ih =>
      rw [List.forall_mem_cons] at h
      rw [List.map_cons, List.mapM_cons, List.mapM_cons]
      exact h.1.bind fun output _ => (ih h.2).bind fun outputs _ => .ok (output :: outputs)

theorem eq_ok_iff {result' : Except ε α} (h : EndsLike id kind result result') {value : α} :
    result' = .ok value ↔ result = .ok value := by
  cases h <;> simp

theorem mapError_eq {result' : Except ε α} (h : EndsLike id kind result result') :
    result'.mapError kind = result.mapError kind := by
  cases h with
  | ok value => rfl
  | error h => simp [Except.mapError, h]

theorem of_eq_ok_iff {result' : Except ε α}
    (h : ∀ value, result' = .ok value ↔ result = .ok value) :
    EndsLike id (fun _ => ()) result result' := by
  cases result with
  | ok value =>
      rw [(h value).2 rfl]
      exact .ok value
  | error fault =>
      cases result' with
      | ok value => exact absurd ((h value).1 rfl) (by simp)
      | error fault' => exact .error rfl

end EndsLike

end FilterSql
