import FilterSql.Proofs.Sequence

/-! Faults and where they stand. A place in a document is the list of positions that lead to it, and
document order is the lexicographic order of places. A reader that takes the members of a list one
after the other, and reports of each the first fault, reports the first fault of the list. -/

namespace FilterSql

/-- What is wrong with a document, and where. -/
abbrev Findings (ε : Type) := List Nat → ε → Prop

namespace Findings

variable {α β γ ε : Type}

/-- Nothing is wrong anywhere. -/
def Clean (findings : Findings ε) : Prop := ∀ place fault, ¬ findings place fault

/-- The fault stands before every other one. -/
def First (findings : Findings ε) (fault : ε) : Prop :=
  ∃ place, findings place fault ∧
    ∀ place' fault', findings place' fault' →
      place' = place ∧ fault' = fault ∨ place < place'

/-- Faults of the document itself, not of a part of it. -/
def here (faults : ε → Prop) : Findings ε := fun place fault => place = [] ∧ faults fault

/-- Faults of the members of a list. -/
def within (findings : α → Findings ε) (members : List α) : Findings ε := fun place fault =>
  ∃ index member inner, members[index]? = some member ∧ place = index :: inner ∧
    findings member inner fault

theorem First.unique {findings : Findings ε} {fault fault' : ε} (h : findings.First fault)
    (h' : findings.First fault') : fault = fault' := by
  obtain ⟨place, hfault, hfirst⟩ := h
  obtain ⟨place', hfault', hfirst'⟩ := h'
  rcases hfirst place' fault' hfault' with ⟨-, heq⟩ | hlt
  · exact heq.symm
  · rcases hfirst' place fault hfault with ⟨-, heq⟩ | hlt'
    · exact heq
    · exact absurd hlt' (List.lt_asymm hlt)

/-- The result fits the document: a value for a valid document, which has no fault, and the first
fault for every other one. -/
def Judges (valid : Prop) (findings : Findings ε) : Except ε β → Prop
  | .ok _ => valid ∧ findings.Clean
  | .error fault => ¬ valid ∧ findings.First fault

variable {valid valid' : Prop} {findings findings' : Findings ε} {result : Except ε β}

theorem Judges.exists_ok_iff (h : findings.Judges valid result) :
    (∃ value, result = .ok value) ↔ valid := by
  cases result with
  | ok value => exact ⟨fun _ => h.1, fun _ => ⟨value, rfl⟩⟩
  | error fault => exact ⟨fun ⟨value, hvalue⟩ => by simp at hvalue, fun hvalid => absurd hvalid h.1⟩

theorem Judges.valid_iff_clean (h : findings.Judges valid result) : valid ↔ findings.Clean := by
  cases result with
  | ok value => exact ⟨fun _ => h.2, fun _ => h.1⟩
  | error fault =>
      obtain ⟨hinvalid, place, hfault, -⟩ := h
      exact ⟨fun hvalid => absurd hvalid hinvalid, fun hclean => absurd hfault (hclean place fault)⟩

theorem Judges.eq_error_iff (h : findings.Judges valid result) {fault : ε} :
    result = .error fault ↔ findings.First fault := by
  cases result with
  | ok value =>
      constructor
      · intro hresult
        simp at hresult
      · rintro ⟨place, hfault, -⟩
        exact absurd hfault (h.2 place fault)
  | error found =>
      constructor
      · intro hresult
        rw [← Except.error.inj hresult]
        exact h.2
      · intro hfirst
        rw [h.2.unique hfirst]

theorem Judges.congr (h : findings.Judges valid result) (hvalid : valid ↔ valid')
    (hfindings : ∀ place fault, findings place fault ↔ findings' place fault) :
    findings'.Judges valid' result := by
  have heq : findings = findings' := by
    funext place fault
    exact propext (hfindings place fault)
  rw [← heq]
  cases result with
  | ok value => exact ⟨hvalid.1 h.1, h.2⟩
  | error fault => exact ⟨mt hvalid.2 h.1, h.2⟩

theorem Judges.map (f : β → γ) (h : findings.Judges valid result) :
    findings.Judges valid (result.map f) := by
  cases result with
  | ok value => exact h
  | error fault => exact h

/-- A document that can have one fault of its own and no other. -/
theorem judges_here {faults : ε → Prop} (hok : ∀ value, result = .ok value → valid)
    (herror : ∀ fault, result = .error fault → faults fault)
    (hinvalid : ∀ fault, faults fault → ¬ valid)
    (hunique : ∀ fault fault', faults fault → faults fault' → fault' = fault) :
    (here faults).Judges valid result := by
  cases result with
  | ok value =>
      have hvalid := hok value rfl
      exact ⟨hvalid, fun _ fault hfault => hinvalid fault hfault.2 hvalid⟩
  | error fault =>
      have hfault := herror fault rfl
      refine ⟨hinvalid fault hfault, [], ⟨rfl, hfault⟩, ?_⟩
      rintro place other ⟨hplace, hother⟩
      exact .inl ⟨hplace, hunique fault other hfault hother⟩

/-- A document that has one fault. -/
theorem judges_error {fault : ε} (hvalid : ¬ valid)
    (hfindings : ∀ place fault', findings place fault' ↔ place = [] ∧ fault' = fault) :
    findings.Judges valid (.error fault : Except ε β) :=
  ⟨hvalid, [], (hfindings _ _).2 ⟨rfl, rfl⟩,
    fun place other hother => .inl ((hfindings place other).1 hother)⟩

/-- What a reader of the whole document reports. -/
def ofReader {ε' : Type} (wrap : ε' → ε) (result : Except ε' β) : Findings ε :=
  here fun fault => ∃ found, result = .error found ∧ wrap found = fault

theorem judges_ofReader {ε' : Type} {result : Except ε' β} (wrap : ε' → ε) :
    (ofReader wrap result).Judges (∃ value, result = .ok value) (result.mapError wrap) := by
  apply judges_here
  · exact fun value hvalue => ⟨value, mapError_eq_ok.1 hvalue⟩
  · intro fault hfault
    cases result with
    | ok value => simp [Except.mapError] at hfault
    | error found => exact ⟨found, rfl, Except.error.inj hfault⟩
  · rintro fault ⟨found, hfound, -⟩ ⟨value, hvalue⟩
    simp [hfound] at hvalue
  · rintro fault fault' ⟨found, hfound, rfl⟩ ⟨found', hfound', rfl⟩
    rw [Except.error.inj (hfound.symm.trans hfound')]

/-- The one fault of a document that meets a condition. -/
def ofCheck (condition : Prop) (fault : ε) : Findings ε :=
  here fun found => condition ∧ found = fault

theorem judges_ofCheck {condition condition' : Prop} [Decidable condition] {fault : ε} {value : β}
    (hcondition : condition ↔ condition') :
    (ofCheck condition' fault).Judges (¬ condition')
      (if condition then .error fault else .ok value) := by
  split
  · next h =>
      rw [hcondition] at h
      exact judges_error (fun hvalid => hvalid h) fun place found => by simp [ofCheck, here, h]
  · next h =>
      rw [hcondition] at h
      exact ⟨h, fun _ _ hfault => h hfault.2.1⟩

/-! ### Lists -/

@[simp]
theorem within_nil {findings : α → Findings ε} {place : List Nat} {fault : ε} :
    ¬ within findings [] place fault := by
  rintro ⟨index, member, inner, hmember, -⟩
  simp at hmember

theorem within_cons {findings : α → Findings ε} {member : α} {members : List α} {place : List Nat}
    {fault : ε} :
    within findings (member :: members) place fault ↔
      (∃ inner, place = 0 :: inner ∧ findings member inner fault) ∨
        ∃ index inner, place = (index + 1) :: inner ∧
          within findings members (index :: inner) fault := by
  constructor
  · rintro ⟨index, found, inner, hfound, rfl, hfault⟩
    cases index with
    | zero =>
        obtain rfl : member = found := by simpa using hfound
        exact .inl ⟨inner, rfl, hfault⟩
    | succ index =>
        exact .inr ⟨index, inner, rfl, index, found, inner, by simpa using hfound, rfl, hfault⟩
  · rintro (⟨inner, rfl, hfault⟩ | ⟨index, inner, rfl, index', found, inner', hfound, heq, hfault⟩)
    · exact ⟨0, member, inner, by simp, rfl, hfault⟩
    · obtain ⟨rfl, rfl⟩ := List.cons.inj heq
      exact ⟨index + 1, found, inner, by simpa using hfound, rfl, hfault⟩

theorem clean_within_cons {findings : α → Findings ε} {member : α} {members : List α}
    (hmember : (findings member).Clean) (hmembers : (within findings members).Clean) :
    (within findings (member :: members)).Clean := by
  intro place fault hfault
  rcases within_cons.1 hfault with ⟨inner, -, hfault⟩ | ⟨index, inner, -, hfault⟩
  · exact hmember inner fault hfault
  · exact hmembers (index :: inner) fault hfault

/-- The first fault of the first member stands before those of all later members. -/
theorem First.within_head {findings : α → Findings ε} {member : α} {members : List α} {fault : ε}
    (h : (findings member).First fault) : (within findings (member :: members)).First fault := by
  obtain ⟨place, hfault, hfirst⟩ := h
  refine ⟨0 :: place, within_cons.2 (.inl ⟨place, rfl, hfault⟩), ?_⟩
  intro place' fault' hfault'
  rcases within_cons.1 hfault' with ⟨inner, rfl, hinner⟩ | ⟨index, inner, rfl, -⟩
  · rcases hfirst inner fault' hinner with ⟨rfl, rfl⟩ | hlt
    · exact .inl ⟨rfl, rfl⟩
    · exact .inr (List.cons_lt_cons_iff.2 (.inr ⟨rfl, hlt⟩))
  · exact .inr (List.cons_lt_cons_iff.2 (.inl (Nat.succ_pos index)))

/-- After a member without faults the first fault is that of the rest. -/
theorem First.within_tail {findings : α → Findings ε} {member : α} {members : List α} {fault : ε}
    (hmember : (findings member).Clean) (h : (within findings members).First fault) :
    (within findings (member :: members)).First fault := by
  obtain ⟨place, hfault, hfirst⟩ := h
  obtain ⟨index, found, inner, hfound, rfl, hinner⟩ := hfault
  refine ⟨(index + 1) :: inner, within_cons.2 (.inr ⟨index, inner, rfl, ?_⟩), ?_⟩
  · exact ⟨index, found, inner, hfound, rfl, hinner⟩
  · intro place' fault' hfault'
    rcases within_cons.1 hfault' with ⟨inner', -, hinner'⟩ | ⟨index', inner', rfl, hrest⟩
    · exact absurd hinner' (hmember inner' fault')
    · rcases hfirst (index' :: inner') fault' hrest with ⟨heq, rfl⟩ | hlt
      · obtain ⟨rfl, rfl⟩ := List.cons.inj heq
        exact .inl ⟨rfl, rfl⟩
      · rw [List.cons_lt_cons_iff] at hlt
        refine .inr (List.cons_lt_cons_iff.2 ?_)
        rcases hlt with hlt | ⟨rfl, hlt⟩
        · exact .inl (Nat.succ_lt_succ hlt)
        · exact .inr ⟨rfl, hlt⟩

/-! ### Stages -/

/-- Faults of documents that are read one after the other. -/
def inTurn (stages : List (Findings ε)) : Findings ε := within id stages

theorem within_eq_inTurn (findings : α → Findings ε) (members : List α) :
    within findings members = inTurn (members.map findings) := by
  funext place fault
  apply propext
  constructor
  · rintro ⟨index, member, inner, hmember, rfl, hfault⟩
    exact ⟨index, findings member, inner, by simp [hmember], rfl, hfault⟩
  · rintro ⟨index, stage, inner, hstage, rfl, hfault⟩
    rw [List.getElem?_map, Option.map_eq_some_iff] at hstage
    obtain ⟨member, hmember, rfl⟩ := hstage
    exact ⟨index, member, inner, hmember, rfl, hfault⟩

/-- Faults of one part of a document. -/
def part (findings : Findings ε) (index : Nat) : Findings ε := fun place fault =>
  findings (index :: place) fault

/-- Faults that all stand in the first `count` parts of a document are those of its parts. -/
theorem eq_inTurn_parts {count : Nat}
    (h : ∀ place fault, findings place fault → ∃ index < count, ∃ inner, place = index :: inner) :
    findings = inTurn ((List.range count).map findings.part) := by
  funext place fault
  apply propext
  constructor
  · intro hfault
    obtain ⟨index, hindex, inner, rfl⟩ := h place fault hfault
    exact ⟨index, findings.part index, inner, by simp [hindex], rfl, hfault⟩
  · rintro ⟨index, stage, inner, hstage, rfl, hfault⟩
    rw [List.getElem?_map, Option.map_eq_some_iff] at hstage
    obtain ⟨index', hindex, rfl⟩ := hstage
    obtain ⟨hlt, rfl⟩ := List.getElem?_eq_some_iff.1 hindex
    simpa [part] using hfault

theorem judges_inTurn_nil (value : β) : (inTurn []).Judges True (.ok value : Except ε β) :=
  ⟨trivial, fun _ _ => within_nil⟩

/-- A fault of the first stage comes before all others; without one the rest decides. -/
theorem Judges.bind {first : Findings ε} {rest : List (Findings ε)} {next : β → Except ε γ}
    (h : first.Judges valid result)
    (hnext : ∀ value, result = .ok value → (inTurn rest).Judges valid' (next value)) :
    (inTurn (first :: rest)).Judges (valid ∧ valid') (result >>= next) := by
  cases result with
  | error fault => exact ⟨fun hvalid => h.1 hvalid.1, h.2.within_head⟩
  | ok value =>
      have hrest := hnext value rfl
      have hbind : Except.ok value >>= next = next value := rfl
      rw [hbind]
      cases hresult : next value with
      | error fault =>
          rw [hresult] at hrest
          exact ⟨fun hvalid => hrest.1 hvalid.2, hrest.2.within_tail h.2⟩
      | ok value' =>
          rw [hresult] at hrest
          exact ⟨⟨h.1, hrest.1⟩, clean_within_cons h.2 hrest.2⟩

theorem Judges.last (h : findings.Judges valid result) :
    (inTurn [findings]).Judges valid result := by
  cases result with
  | ok value => exact ⟨h.1, clean_within_cons h.2 fun _ _ => within_nil⟩
  | error fault => exact ⟨h.1, h.2.within_head⟩

/-- A check in front of the rest, with a fault of its own. -/
theorem judges_ite {condition condition' : Prop} [Decidable condition] {fault : ε}
    {rest : List (Findings ε)} (hcondition : condition ↔ condition')
    (h : ¬ condition' → (inTurn rest).Judges valid result) :
    (inTurn (ofCheck condition' fault :: rest)).Judges (¬ condition' ∧ valid)
      (if condition then .error fault else result) := by
  have hcheck : (ofCheck condition' fault).Judges (¬ condition')
      (if condition then .error fault else .ok () : Except ε Unit) := judges_ofCheck hcondition
  have hbind : (if condition then .error fault else result) =
      (if condition then .error fault else .ok () : Except ε Unit) >>= fun _ => result := by
    split <;> rfl
  rw [hbind]
  exact hcheck.bind fun value hvalue => h (hcheck.exists_ok_iff.1 ⟨value, hvalue⟩)

/-- A list is judged by judging its members from left to right. -/
theorem judges_mapM {valid : α → Prop} {findings : α → Findings ε} {f : α → Except ε β}
    {members : List α}
    (h : ∀ member ∈ members, (findings member).Judges (valid member) (f member)) :
    (within findings members).Judges (∀ member ∈ members, valid member) (members.mapM f) := by
  rw [within_eq_inTurn]
  induction members with
  | nil => exact ⟨by simp, fun _ _ => within_nil⟩
  | cons member members ih =>
      rw [List.forall_mem_cons] at h
      rw [List.mapM_cons, List.map_cons, List.forall_mem_cons]
      refine h.1.bind fun value _ => ?_
      rw [bind_pure_eq_map]
      exact (ih h.2).map _

/-- A search for the first result at fault among those of the members. -/
theorem judges_find? {valid : α → Prop} {findings : α → Findings ε} {atFault : β → Bool}
    {fault : β → ε} {members : List α} {results : List β} {value : γ}
    (h : List.Forall₂ (fun member result => (findings member).Judges (valid member)
      (if atFault result = true then .error (fault result) else .ok ())) members results) :
    (within findings members).Judges (∀ member ∈ members, valid member)
      ((results.find? atFault).elim (.ok value) fun result => .error (fault result)) := by
  rw [within_eq_inTurn]
  induction h with
  | nil => exact ⟨by simp, fun _ _ => within_nil⟩
  | @cons member result members results hhead _ ih =>
      have hfind : ((result :: results).find? atFault).elim (.ok value)
          (fun result => Except.error (fault result)) =
          (if atFault result = true then .error (fault result) else .ok ()) >>= fun _ =>
            (results.find? atFault).elim (.ok value) fun result => .error (fault result) := by
        rw [List.find?_cons]
        cases atFault result <;> rfl
      rw [hfind, List.map_cons, List.forall_mem_cons]
      exact hhead.bind fun _ _ => ih

/-- What is told of the members does not depend on where they stand. -/
theorem judges_mapM_zipIdx {valid : α → Prop} {findings : α → Findings ε}
    {f : α × Nat → Except ε β} {members : List α}
    (h : ∀ member ∈ members, ∀ index,
      (findings member).Judges (valid member) (f (member, index))) :
    (within findings members).Judges (∀ member ∈ members, valid member)
      (members.zipIdx.mapM f) := by
  have hmembers : ∀ member ∈ members.zipIdx,
      (findings member.1).Judges (valid member.1) (f member) :=
    fun member hmember => h member.1 (List.fst_mem_of_mem_zipIdx hmember) member.2
  have hfirst := List.zipIdx_map_fst 0 members
  have hwithin : within (fun member : α × Nat => findings member.1) members.zipIdx =
      within findings members := by
    rw [within_eq_inTurn, within_eq_inTurn, ← hfirst, List.map_map, hfirst]
    rfl
  rw [← hwithin]
  refine (judges_mapM hmembers).congr ?_ fun _ _ => Iff.rfl
  rw [← List.forall_mem_map, hfirst]

end Findings

end FilterSql
