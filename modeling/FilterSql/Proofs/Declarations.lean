import FilterSql.Proofs.Growth
import FilterSql.Proofs.Identifiers
import Mathlib.Data.String.Basic

/-! Scopes over whole runs. Aliases are declared one after the other, some of them refused, and in
between one of them may be activated. A scope knows the main alias and what was declared without a
fault; it lists the latter in the order of their bytes, and activating changes no more than the owner
of undotted names. -/

namespace FilterSql

/-! ### The order of bytes -/

def bytes (text : String) : List UInt8 := text.toUTF8.data.toList

theorem bytes_of_isWord {text : String} (h : IsWord text) :
    bytes text = text.toList.map fun c => UInt8.ofNat c.toNat := by
  have hbytes : bytes text = text.toList.flatMap String.utf8EncodeChar := by
    show text.toByteArray.data.toList = _
    rw [← String.utf8Encode_toList, List.utf8Encode, List.toList_data_toByteArray]
  rw [hbytes, List.map_eq_flatMap]
  apply List.flatMap_congr
  intro c hc
  have hascii : c.val.toNat ≤ 127 := Nat.le_of_lt_succ (toNat_lt_of_isWordChar (h.2 c hc))
  rw [String.utf8EncodeChar.eq_1, if_pos hascii]
  rfl

theorem lex_map {α β : Type} {r : α → α → Prop} {s : β → β → Prop} (f : α → β) {l l' : List α}
    (hf : ∀ a ∈ l, ∀ b ∈ l', r a b → s (f a) (f b)) (h : List.Lex r l l') :
    List.Lex s (l.map f) (l'.map f) := by
  induction h with
  | nil => exact .nil
  | rel hr => exact .rel (hf _ List.mem_cons_self _ List.mem_cons_self hr)
  | cons _ ih =>
      exact .cons (ih fun a ha b hb => hf a (List.mem_cons_of_mem _ ha) b (List.mem_cons_of_mem _ hb))

/-- Words are in the order of their characters when they are in that of their bytes. -/
theorem bytes_lt_bytes {text text' : String} (h : IsWord text) (h' : IsWord text')
    (hlt : text < text') : bytes text < bytes text' := by
  rw [bytes_of_isWord h, bytes_of_isWord h']
  refine lex_map _ (fun c hc d hd hcd => ?_) (String.lt_iff_toList_lt.1 hlt)
  have hc' := toNat_lt_of_isWordChar (h.2 c hc)
  have hd' := toNat_lt_of_isWordChar (h'.2 d hd)
  have hnat : c.toNat < d.toNat := hcd
  rw [UInt8.lt_iff_toNat_lt, UInt8.toNat_ofNat', UInt8.toNat_ofNat']
  omega

namespace Scope

variable {scope : Scope} {aliasName other : String}

theorem pairwise_insertAlias {aliases : List String} (h : aliases.Pairwise (· < ·))
    (hfree : aliasName ∉ aliases) : (insertAlias aliasName aliases).Pairwise (· < ·) := by
  induction aliases with
  | nil => exact List.pairwise_singleton _ _
  | cons first aliases ih =>
      obtain ⟨hfirst, hrest⟩ := List.pairwise_cons.1 h
      rw [List.mem_cons, not_or] at hfree
      unfold insertAlias
      by_cases hlt : aliasName < first
      · rw [if_pos hlt]
        refine List.pairwise_cons.2 ⟨fun next hnext => ?_, h⟩
        rcases List.mem_cons.1 hnext with rfl | hnext
        · exact hlt
        · exact hlt.trans (hfirst next hnext)
      · rw [if_neg hlt]
        refine List.pairwise_cons.2 ⟨fun next hnext => ?_, ih hrest hfree.2⟩
        rcases mem_insertAlias.1 hnext with rfl | hnext
        · exact lt_of_le_of_ne (not_lt.1 hlt) (Ne.symm hfree.1)
        · exact hfirst next hnext

/-! ### One step -/

/-- The joins are known under words, each listed once and in order, and the main alias is none of
them. -/
structure IsOrdered (scope : Scope) : Prop where
  words : ∀ aliasName ∈ scope.joins, IsWord aliasName
  main : scope.main ∉ scope.joins
  ordered : scope.joins.Pairwise (· < ·)

theorem isOrdered_ofMain (main : String) : (ofMain main).IsOrdered :=
  ⟨by simp [ofMain], by simp [ofMain], List.Pairwise.nil⟩

theorem IsOrdered.activate (h : scope.IsOrdered) (aliasName : String) :
    (scope.activate aliasName).IsOrdered :=
  ⟨h.words, h.main, h.ordered⟩

theorem IsOrdered.declaring (h : scope.IsOrdered) (aliasName : String) :
    (scope.declaring aliasName).IsOrdered := by
  rcases declaring_eq scope aliasName with heq | ⟨hword, hfree, heq⟩
  · rwa [heq]
  · rw [← Bool.not_eq_true, knows_eq_true, not_or] at hfree
    rw [heq]
    refine ⟨fun next hnext => ?_, fun hmem => ?_, pairwise_insertAlias h.ordered hfree.2⟩
    · rcases mem_insertAlias.1 hnext with rfl | hnext
      · exact hword
      · exact h.words next hnext
    · rcases mem_insertAlias.1 hmem with heq | hmem
      · exact hfree.1 heq.symm
      · exact h.main hmem

/-- The listed aliases are the known ones without the main one. -/
theorem IsOrdered.mem_joins_iff (h : scope.IsOrdered) :
    aliasName ∈ scope.joins ↔ scope.knows aliasName = true ∧ aliasName ≠ scope.main := by
  rw [knows_eq_true]
  constructor
  · exact fun hmem => ⟨.inr hmem, fun heq => h.main (heq ▸ hmem)⟩
  · exact fun ⟨hknown, hne⟩ => hknown.resolve_left hne

theorem IsOrdered.bytes_lt (h : scope.IsOrdered) :
    scope.joins.Pairwise fun first second => bytes first < bytes second :=
  h.ordered.imp_of_mem fun hfirst hsecond =>
    bytes_lt_bytes (h.words _ hfirst) (h.words _ hsecond)

theorem exists_declare_eq_ok_iff :
    (∃ answer, scope.declare aliasName = .ok answer) ↔ IsWord aliasName := by
  constructor
  · rintro ⟨⟨isFree, next⟩, h⟩
    exact (declare_eq_ok.1 h).1
  · intro hword
    cases hknown : scope.knows aliasName with
    | false => exact ⟨_, declare_eq_ok.2 ⟨hword, .inr ⟨hknown, rfl, rfl⟩⟩⟩
    | true => exact ⟨_, declare_eq_ok.2 ⟨hword, .inl ⟨hknown, rfl, rfl⟩⟩⟩

theorem declare_eq_error_iff {fault : IdentifierFault} :
    scope.declare aliasName = .error fault ↔ Identifier.word aliasName = .error fault := by
  unfold declare
  cases Identifier.word aliasName with
  | error found => simp
  | ok name =>
      dsimp only
      split <;> simp

theorem exists_declare_eq_error_iff :
    (∃ fault, scope.declare aliasName = .error fault) ↔ ¬ IsWord aliasName := by
  rw [← @exists_declare_eq_ok_iff scope]
  cases scope.declare aliasName <;> simp

theorem declaring_of_declare {isFree : Bool} {next : Scope}
    (h : scope.declare aliasName = .ok (isFree, next)) : scope.declaring aliasName = next := by
  rw [declaring, h]

theorem declaring_of_not_isWord (h : ¬ IsWord aliasName) : scope.declaring aliasName = scope := by
  obtain ⟨fault, hfault⟩ := exists_declare_eq_error_iff.2 h
  rw [declaring, hfault]

theorem declare_eq_ok_true_iff :
    scope.declare aliasName = .ok (true, scope.declaring aliasName) ↔
      IsWord aliasName ∧ scope.knows aliasName = false := by
  constructor
  · intro h
    obtain ⟨hword, hfree, -⟩ := declare_eq_ok_true h
    exact ⟨hword, hfree⟩
  · rintro ⟨hword, hfree⟩
    have h : scope.declare aliasName = .ok (true, scope.extend aliasName) :=
      declare_eq_ok.2 ⟨hword, .inr ⟨hfree, rfl, rfl⟩⟩
    rw [declaring_of_declare h, h]

theorem declare_eq_ok_false_iff :
    scope.declare aliasName = .ok (false, scope) ↔
      IsWord aliasName ∧ scope.knows aliasName = true := by
  simp [declare_eq_ok]

/-- What is known after a declaration is what was known and, unless it was refused, its alias. -/
theorem knows_declaring :
    (scope.declaring aliasName).knows other = true ↔
      scope.knows other = true ∨
        other = aliasName ∧ ∃ answer, scope.declare aliasName = .ok answer := by
  rw [exists_declare_eq_ok_iff]
  by_cases hword : IsWord aliasName
  · cases hknown : scope.knows aliasName with
    | false =>
        have h := declaring_of_declare (declare_eq_ok.2 ⟨hword, .inr ⟨hknown, rfl, rfl⟩⟩)
        rw [h, knows_extend]
        simp [hword]
    | true =>
        rw [declaring_of_declare (declare_eq_ok_false_iff.2 ⟨hword, hknown⟩)]
        constructor
        · exact .inl
        · rintro (hother | ⟨rfl, -⟩)
          · exact hother
          · exact hknown
  · simp [declaring_of_not_isWord hword, hword]

/-! ### Another owner -/

/-- The second scope gives the star and undotted names to another owner, and nothing else. Both old
and new owner may stand in front of a dotted name, known or not. -/
structure ChangesOwner (scope scope' : Scope) (aliasName : String) : Prop where
  main : scope'.main = scope.main
  joins : scope'.joins = scope.joins
  knows : ∀ other, scope'.knows other = scope.knows other
  answers : ∀ other, (scope'.declare other).map Prod.fst = (scope.declare other).map Prod.fst
  owner : scope'.owner = aliasName
  star : scope'.selected "*" = .ok (.all aliasName)
  undotted : ∀ name segment, Identifier.path name = .ok [segment] →
    scope'.column name = .ok (.path aliasName [segment])
  dotted : ∀ name,
    (∀ first others, Identifier.path name = .ok (first :: others) →
      others ≠ [] ∧ (scope.knows first = true ∨ first ≠ scope.owner ∧ first ≠ aliasName)) →
    scope'.column name = scope.column name
  selected : ∀ name, name ≠ "*" → scope'.column name = scope.column name →
    scope'.selected name = scope.selected name

theorem column_activate_of_dotted {name : String}
    (h : ∀ first others, Identifier.path name = .ok (first :: others) →
      others ≠ [] ∧ (scope.knows first = true ∨ first ≠ scope.owner ∧ first ≠ aliasName)) :
    (scope.activate aliasName).column name = scope.column name := by
  unfold column ColumnRef.resolve
  cases hpath : Identifier.path name with
  | error fault => rfl
  | ok segments =>
      match segments with
      | [] => exact absurd rfl (Identifier.path_eq_ok hpath).1
      | [first] => exact absurd rfl (h first [] hpath).1
      | first :: second :: others =>
          have hknows : (scope.activate aliasName).knows first = scope.knows first := rfl
          have howner : (scope.activate aliasName).owner = aliasName := rfl
          rcases (h first _ hpath).2 with hknown | ⟨hold, hnew⟩
          · simp [hknows, hknown]
          · simp [hknows, howner, hold, hnew]

theorem selected_activate {name : String} (hstar : name ≠ "*")
    (hcolumn : (scope.activate aliasName).column name = scope.column name) :
    (scope.activate aliasName).selected name = scope.selected name := by
  unfold selected
  split
  · next hreverse =>
      rw [List.reverse_eq_iff] at hreverse
      exact absurd (String.toList_inj.1 hreverse) hstar
  · rfl
  · exact hcolumn

theorem changesOwner_activate (scope : Scope) (aliasName : String) :
    scope.ChangesOwner (scope.activate aliasName) aliasName where
  main := rfl
  joins := rfl
  knows _ := rfl
  answers other := by
    unfold declare
    cases Identifier.word other with
    | error fault => rfl
    | ok name =>
        have hknows : (scope.activate aliasName).knows name = scope.knows name := rfl
        dsimp only
        rw [hknows]
        split <;> rfl
  owner := rfl
  star := rfl
  undotted name segment hpath := by
    rw [column, ColumnRef.resolve, hpath]
    rfl
  dotted _ := column_activate_of_dotted
  selected _ := selected_activate

/-! ### Runs -/

inductive Step where
  | declare (aliasName : String)
  | activate (aliasName : String)

def Step.apply (scope : Scope) : Step → Scope
  | .declare aliasName => scope.declaring aliasName
  | .activate aliasName => scope.activate aliasName

/-- The scope after the steps, opened for any text. -/
def run (main : String) (steps : List Step) : Scope := steps.foldl Step.apply (ofMain main)

/-- One of the steps declares the alias and is not refused where it is taken. -/
def Declares (scope : Scope) (steps : List Step) (aliasName : String) : Prop :=
  ∃ before after, steps = before ++ .declare aliasName :: after ∧
    ∃ answer, (before.foldl Step.apply scope).declare aliasName = .ok answer

theorem declares_cons {step : Step} {steps : List Step} :
    scope.Declares (step :: steps) other ↔
      (step = .declare other ∧ ∃ answer, scope.declare other = .ok answer) ∨
        (step.apply scope).Declares steps other := by
  constructor
  · rintro ⟨before, after, hsteps, hanswer⟩
    cases before with
    | nil =>
        obtain ⟨rfl, rfl⟩ := List.cons.inj hsteps
        exact .inl ⟨rfl, hanswer⟩
    | cons first before =>
        obtain ⟨rfl, rfl⟩ := List.cons.inj hsteps
        exact .inr ⟨before, after, rfl, hanswer⟩
  · rintro (⟨rfl, hanswer⟩ | ⟨before, after, rfl, hanswer⟩)
    · exact ⟨[], steps, rfl, hanswer⟩
    · exact ⟨step :: before, after, rfl, hanswer⟩

theorem knows_apply {step : Step} :
    (step.apply scope).knows other = true ↔
      scope.knows other = true ∨
        step = .declare other ∧ ∃ answer, scope.declare other = .ok answer := by
  cases step with
  | declare aliasName =>
      rw [Step.apply, knows_declaring, Step.declare.injEq]
      by_cases heq : other = aliasName
      · simp [heq]
      · simp [heq, Ne.symm heq]
  | activate aliasName =>
      have hknows : (scope.activate aliasName).knows other = scope.knows other := rfl
      simp [Step.apply, hknows]

theorem knows_foldl {steps : List Step} :
    (steps.foldl Step.apply scope).knows other = true ↔
      scope.knows other = true ∨ scope.Declares steps other := by
  induction steps generalizing scope with
  | nil => simp [Declares]
  | cons step steps ih => rw [List.foldl_cons, ih, knows_apply, declares_cons, or_assoc]

theorem main_apply (step : Step) : (step.apply scope).main = scope.main := by
  cases step with
  | declare aliasName =>
      rcases declaring_eq scope aliasName with heq | ⟨-, -, heq⟩
      · rw [Step.apply, heq]
      · rw [Step.apply, heq]
        rfl
  | activate aliasName => rfl

theorem IsOrdered.apply (h : scope.IsOrdered) (step : Step) : (step.apply scope).IsOrdered := by
  cases step with
  | declare aliasName => exact h.declaring aliasName
  | activate aliasName => exact h.activate aliasName

theorem main_run (main : String) (steps : List Step) : (run main steps).main = main :=
  List.foldlRecOn (motive := fun scope => scope.main = main) steps Step.apply rfl
    fun _ h step _ => (main_apply step).trans h

theorem isOrdered_run (main : String) (steps : List Step) : (run main steps).IsOrdered :=
  List.foldlRecOn steps Step.apply (isOrdered_ofMain main) fun _ h step _ => h.apply step

/-- After any run a scope knows the main alias, a word or not, and every alias that was declared
without a fault. A declaration is refused as an identifier exactly for a text that is no word,
answers that the alias was free exactly for a word that was not known, and otherwise that it was
taken; only a free alias changes the scope. The scope lists the known aliases but the main one, each
once, in the order of their bytes. Activating an alias changes the owner of undotted names and of the
star. -/
theorem run_keeps_declarations (main : String) (steps : List Step) :
    (∀ aliasName, (run main steps).knows aliasName = true ↔
      aliasName = main ∨ (ofMain main).Declares steps aliasName) ∧
    (∀ aliasName,
      ((run main steps).declaring aliasName = run main steps ∧
        (∃ fault, (run main steps).declare aliasName = .error fault ∧
          Identifier.word aliasName = .error fault) ↔ ¬ IsWord aliasName) ∧
      ((run main steps).declare aliasName = .ok (true, (run main steps).declaring aliasName) ↔
        IsWord aliasName ∧ (run main steps).knows aliasName = false) ∧
      ((run main steps).declare aliasName = .ok (false, run main steps) ↔
        IsWord aliasName ∧ (run main steps).knows aliasName = true)) ∧
    (∀ aliasName, aliasName ∈ (run main steps).joins ↔
      (run main steps).knows aliasName = true ∧ aliasName ≠ main) ∧
    (run main steps).joins.Nodup ∧
    (run main steps).joins.Pairwise (fun first second => bytes first < bytes second) ∧
    ∀ aliasName, (run main steps).ChangesOwner ((run main steps).activate aliasName) aliasName := by
  have hordered := isOrdered_run main steps
  refine ⟨fun aliasName => ?_, fun aliasName => ⟨?_, declare_eq_ok_true_iff,
    declare_eq_ok_false_iff⟩, fun aliasName => ?_, hordered.ordered.imp fun hlt => hlt.ne,
    hordered.bytes_lt, changesOwner_activate _⟩
  · rw [run, knows_foldl, knows_ofMain]
  · rw [← @exists_declare_eq_error_iff (run main steps)]
    simp only [← @declare_eq_error_iff (run main steps), and_self]
    refine and_iff_right_of_imp fun hfault => ?_
    exact declaring_of_not_isWord (exists_declare_eq_error_iff.1 hfault)
  · rw [hordered.mem_joins_iff, main_run]

/-- A main alias that is no word is known, but declaring it is refused. -/
example :
    let scope := run "a b" [.declare "o", .activate "x", .declare "B", .declare "a b", .declare "o"]
    scope = ⟨"a b", ["B", "o"], some "x"⟩ ∧
      scope.declare "a b" = .error (.foreignCharacter "a b") ∧ scope.knows "a b" = true :=
  ⟨by cbv, by cbv, by cbv⟩

end Scope

end FilterSql
