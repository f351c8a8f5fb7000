import FilterSql.Assembler
import FilterSql.Finder
import Mathlib

/-! The calls of a search. A search makes the calls of a script one after the other, stops at the
first that fails and passes its fault on; if none fails, its result is what the replies give. Without
an entity a search with counts has no script: it is refused before the first call. The backend may
keep a state of any kind and answer or fail in it as it likes. -/

namespace FilterSql

variable {σ ρ ε α β γ : Type}

/-- What a call that does not fail is answered with. -/
inductive Reply (ρ : Type) where
  | rows (rows : List ρ)
  | number (number : UInt64)

/-! ### Scripts -/

namespace Backend

def reply (backend : Backend (StateM σ) ρ ε) : Call → StateM σ (Except ε (Reply ρ))
  | .rows query => return (← backend.rows query).map .rows
  | .number query => return (← backend.number query).map .number
  | .total entity => return (← backend.total entity).map .number

/-- What the calls are answered with when they are made one after the other. -/
def replies (backend : Backend (StateM σ) ρ ε) (calls : List Call) :
    StateM σ (List (Except ε (Reply ρ))) :=
  calls.mapM backend.reply

/-- How a script of calls ends that is followed from a state: all calls are made, none fails, and the
replies give the result; or they are made up to the first that fails, which gives its fault. -/
inductive Concludes (backend : Backend (StateM σ) ρ ε) (state : σ) (script : List Call)
    (gives : List (Reply ρ) → α → Prop) :
    Except (SearchFault ε) α → List Call → σ → Prop where
  | done {replies : List (Reply ρ)} {value : α} {state' : σ}
      (hreplies : (backend.replies script).run state = (replies.map .ok, state'))
      (hvalue : gives replies value) : Concludes backend state script gives (.ok value) script state'
  | fails {made : List Call} {replies : List (Reply ρ)} {fault : ε} {state' : σ}
      (hmade : made <+: script)
      (hreplies : (backend.replies made).run state = (replies.map .ok ++ [.error fault], state')) :
      Concludes backend state script gives (.error (.backend fault)) made state'

variable {backend : Backend (StateM σ) ρ ε} {call : Call} {state state' state'' : σ}

theorem replies_cons {calls : List Call} {answer : Except ε (Reply ρ)}
    {answers : List (Except ε (Reply ρ))} (hcall : (backend.reply call).run state = (answer, state'))
    (hcalls : (backend.replies calls).run state' = (answers, state'')) :
    (backend.replies (call :: calls)).run state = (answer :: answers, state'') := by
  rw [replies, List.mapM_cons, StateT.run_bind, hcall]
  show ((answer :: ((backend.replies calls).run state').1), ((backend.replies calls).run state').2) = _
  rw [hcalls]

/-- A call that does not fail stands in front of what is made after it. -/
theorem Concludes.cons {script made : List Call} {gives : List (Reply ρ) → α → Prop}
    {result : Except (SearchFault ε) α} {reply : Reply ρ}
    (hcall : (backend.reply call).run state = (.ok reply, state'))
    (h : backend.Concludes state' script (fun replies => gives (reply :: replies)) result made
      state'') :
    backend.Concludes state (call :: script) gives result (call :: made) state'' := by
  cases h with
  | @done replies value _ hreplies hvalue =>
      have hall : (backend.replies (call :: script)).run state =
          ((reply :: replies).map .ok, state'') := replies_cons hcall hreplies
      exact .done hall hvalue
  | @fails made replies fault _ hmade hreplies =>
      have hall : (backend.replies (call :: made)).run state =
          ((reply :: replies).map .ok ++ [.error fault], state'') := replies_cons hcall hreplies
      exact .fails (List.cons_prefix_cons.2 ⟨rfl, hmade⟩) hall

theorem Concludes.of_error {script : List Call} {gives : List (Reply ρ) → α → Prop} {fault : ε}
    (hcall : (backend.reply call).run state = (.error fault, state')) :
    backend.Concludes state (call :: script) gives (.error (.backend fault)) [call] state' := by
  have hnone : (backend.replies []).run state' = ([], state') := rfl
  have hone : (backend.replies [call]).run state =
      (([] : List (Reply ρ)).map .ok ++ [.error fault], state') := replies_cons hcall hnone
  exact .fails (List.cons_prefix_cons.2 ⟨rfl, List.nil_prefix⟩) hone

end Backend

/-! ### Actions -/

namespace Finder

abbrev Plain (σ ε α : Type) := ExceptT (SearchFault ε) (StateM σ) α

/-- An action on a backend that keeps the calls it gets. -/
abbrev Recorded (σ ε α : Type) := ExceptT (SearchFault ε) (StateT (List Call) (StateM σ)) α

/-- The result of an action and the state in which it leaves the backend. -/
def outcome (action : Plain σ ε α) (state : σ) : Except (SearchFault ε) α × σ :=
  action.run.run state

/-- The same, with the calls made behind earlier ones. -/
def watch (action : Recorded σ ε α) (state : σ) (earlier : List Call) :
    (Except (SearchFault ε) α × List Call) × σ :=
  (action.run.run earlier).run state

/-- A call that is put on record. -/
def noted (call : Call) (ask : StateM σ (Except ε γ)) :
    StateT (List Call) (StateM σ) (Except ε γ) :=
  fun calls => do return (← ask, calls ++ [call])

theorem outcome_bind (action : Plain σ ε α) (next : α → Plain σ ε β) (state : σ) :
    outcome (action >>= next) state =
      match outcome action state with
      | (.ok value, state') => outcome (next value) state'
      | (.error fault, state') => (.error fault, state') := by
  have hcont : outcome (action >>= next) state =
      (fun found : Except (SearchFault ε) α × σ =>
        (ExceptT.bindCont next found.1).run found.2) (outcome action state) := rfl
  rw [hcont]
  rcases outcome action state with ⟨answer, state'⟩
  cases answer <;> rfl

theorem watch_bind (action : Recorded σ ε α) (next : α → Recorded σ ε β) (state : σ)
    (earlier : List Call) :
    watch (action >>= next) state earlier =
      match watch action state earlier with
      | ((.ok value, calls), state') => watch (next value) state' calls
      | ((.error fault, calls), state') => ((.error fault, calls), state') := by
  have hcont : watch (action >>= next) state earlier =
      (fun found : (Except (SearchFault ε) α × List Call) × σ =>
        ((ExceptT.bindCont next found.1.1).run found.1.2).run found.2)
          (watch action state earlier) := rfl
  rw [hcont]
  rcases watch action state earlier with ⟨⟨answer, calls⟩, state'⟩
  cases answer <;> rfl

theorem outcome_answer (ask : StateM σ (Except ε γ)) (state : σ) :
    outcome (answer ask) state =
      ((ask.run state).1.mapError .backend, (ask.run state).2) :=
  rfl

theorem watch_answer (call : Call) (ask : StateM σ (Except ε γ)) (state : σ)
    (earlier : List Call) :
    watch (answer (noted call ask)) state earlier =
      (((ask.run state).1.mapError .backend, earlier ++ [call]), (ask.run state).2) :=
  rfl

/-- From every state the action follows the script, and the record shows the calls it makes. -/
def Follows (backend : Backend (StateM σ) ρ ε) (script : List Call)
    (gives : List (Reply ρ) → α → Prop) (plain : Plain σ ε α) (recorded : Recorded σ ε α) : Prop :=
  ∀ state earlier, ∃ result made state',
    outcome plain state = (result, state') ∧
      watch recorded state earlier = ((result, earlier ++ made), state') ∧
      backend.Concludes state script gives result made state'

/-- In that state the action ends with a fault of its own and without any call. -/
def Refuses (fault : SearchFault ε) (plain : Plain σ ε α) (recorded : Recorded σ ε α)
    (state : σ) : Prop :=
  outcome plain state = (.error fault, state) ∧
    ∀ earlier, watch recorded state earlier = ((.error fault, earlier), state)

variable {backend : Backend (StateM σ) ρ ε} {script : List Call}

theorem follows_pure (value : α) :
    Follows backend [] (fun replies result => replies = [] ∧ result = value) (pure value)
      (pure value) := by
  intro state earlier
  have hnone : (backend.replies []).run state = (([] : List (Reply ρ)).map .ok, state) := rfl
  refine ⟨.ok value, [], state, rfl, ?_, .done hnone ⟨rfl, rfl⟩⟩
  rw [List.append_nil]
  rfl

theorem Follows.mono {gives gives' : List (Reply ρ) → α → Prop} {plain : Plain σ ε α}
    {recorded : Recorded σ ε α} (h : Follows backend script gives plain recorded)
    (hgives : ∀ replies value, gives replies value → gives' replies value) :
    Follows backend script gives' plain recorded := by
  intro state earlier
  obtain ⟨result, made, state', hplain, hrecorded, hconcludes⟩ := h state earlier
  refine ⟨result, made, state', hplain, hrecorded, ?_⟩
  cases hconcludes with
  | done hreplies hvalue => exact .done hreplies (hgives _ _ hvalue)
  | fails hmade hreplies => exact .fails hmade hreplies

/-- One call, and then what follows its reply. -/
theorem follows_ask {call : Call} {ask : StateM σ (Except ε γ)} {toReply : γ → Reply ρ}
    (hask : backend.reply call = do return (← ask).map toReply)
    {gives : List (Reply ρ) → α → Prop} {next : γ → Plain σ ε α} {next' : γ → Recorded σ ε α}
    (hnext : ∀ value, Follows backend script (fun replies => gives (toReply value :: replies))
      (next value) (next' value)) :
    Follows backend (call :: script) gives (answer ask >>= next)
      (answer (noted call ask) >>= next') := by
  intro state earlier
  have hcall : (backend.reply call).run state =
      ((ask.run state).1.map toReply, (ask.run state).2) := by
    rw [hask]
    rfl
  rw [outcome_bind, watch_bind, outcome_answer, watch_answer]
  rcases hrun : ask.run state with ⟨answer, state'⟩
  rw [hrun] at hcall
  cases answer with
  | error fault => exact ⟨_, _, _, rfl, rfl, .of_error hcall⟩
  | ok value =>
      obtain ⟨result, made, state'', hplain, hrecorded, hconcludes⟩ :=
        hnext value state' (earlier ++ [call])
      rw [List.append_assoc] at hrecorded
      exact ⟨result, call :: made, state'', hplain, hrecorded, hconcludes.cons hcall⟩

/-- One call whose reply is the result. -/
theorem follows_last {call : Call} {ask : StateM σ (Except ε γ)} {toReply : γ → Reply ρ}
    (hask : backend.reply call = do return (← ask).map toReply) :
    Follows backend [call] (fun replies value => replies = [toReply value]) (answer ask)
      (answer (noted call ask)) := by
  have hbind : Follows backend [call] (fun replies value => replies = [toReply value])
      (answer ask >>= pure) (answer (noted call ask) >>= pure) :=
    follows_ask hask fun value => (follows_pure value).mono fun replies result h => by
      rw [h.1, h.2]
  rwa [bind_pure, bind_pure] at hbind

/-! ### Searches -/

variable {finder : Finder} {entity : String}

theorem search_without_counts :
    Follows backend [.rows finder.select.query]
      (fun replies found => ∃ rows, replies = [.rows rows] ∧ found = ⟨rows, none, none⟩)
      (finder.search backend false) (finder.search backend.recording false) := by
  refine follows_ask rfl fun rows => (follows_pure _).mono fun replies found h => ?_
  obtain ⟨rfl, rfl⟩ := h
  exact ⟨rows, rfl, rfl⟩

theorem search_with_counts (hentity : finder.entity = some entity) :
    Follows backend
      [.rows finder.select.query, .number finder.select.countingQuery, .total entity]
      (fun replies found => ∃ rows matching total,
        replies = [.rows rows, .number matching, .number total] ∧
          found = ⟨rows, some matching, some total⟩)
      (finder.search backend true) (finder.search backend.recording true) := by
  obtain ⟨select, found⟩ := finder
  obtain rfl : found = some entity := hentity
  refine follows_ask rfl fun rows => follows_ask rfl fun matching => follows_ask rfl fun total =>
    (follows_pure _).mono fun replies found h => ?_
  obtain ⟨rfl, rfl⟩ := h
  exact ⟨rows, matching, total, rfl, rfl⟩

theorem refuses_search (hentity : finder.entity = none) (state : σ) :
    Refuses .noEntity (finder.search backend true) (finder.search backend.recording true)
      state := by
  obtain ⟨select, found⟩ := finder
  obtain rfl : found = none := hentity
  exact ⟨rfl, fun _ => rfl⟩

theorem total_of_entity {passed : Option String} (h : passed.or finder.entity = some entity) :
    Follows backend [.total entity] (fun replies total => replies = [.number total])
      (finder.total backend passed) (finder.total backend.recording passed) := by
  unfold total
  rw [h]
  exact follows_last rfl

theorem refuses_total {passed : Option String} (h : passed.or finder.entity = none) (state : σ) :
    Refuses .noEntity (finder.total backend passed) (finder.total backend.recording passed)
      state := by
  unfold total
  rw [h]
  exact ⟨rfl, fun _ => rfl⟩

/-- A fault that no call gives is not what a script ends with. -/
theorem Follows.not_refuses {gives : List (Reply ρ) → α → Prop} {plain : Plain σ ε α}
    {recorded : Recorded σ ε α} (h : Follows backend script gives plain recorded) (state : σ) :
    ¬ Refuses .noEntity plain recorded state := by
  intro hrefuses
  obtain ⟨result, made, state', hplain, -, hconcludes⟩ := h state []
  rw [hrefuses.1] at hplain
  obtain ⟨rfl, -⟩ := Prod.mk.inj hplain
  cases hconcludes

theorem refuses_total_iff {passed : Option String} {state : σ} :
    Refuses .noEntity (finder.total backend passed) (finder.total backend.recording passed) state ↔
      passed = none ∧ finder.entity = none := by
  rw [← Option.or_eq_none_iff]
  constructor
  · intro hrefuses
    cases hentity : passed.or finder.entity with
    | none => rfl
    | some entity => exact absurd hrefuses ((total_of_entity hentity).not_refuses state)
  · exact fun h => refuses_total h state

/-- A search without counts makes one call, for the rows. With counts it makes none if there is no
entity; otherwise it calls for the rows, for their number and for the total of the entity, in this
order and up to the first call that fails, whose fault it passes on, and if none fails it holds the
three answers. The total is that of the entity passed, or else of that of the finder, and is refused
without a call exactly where neither is given. -/
theorem search_calls_in_turn (finder : Finder) (backend : Backend (StateM σ) ρ ε) :
    Follows backend [.rows finder.select.query]
      (fun replies found => ∃ rows, replies = [.rows rows] ∧ found = ⟨rows, none, none⟩)
      (finder.search backend false) (finder.search backend.recording false) ∧
    (∀ state, finder.entity = none →
      Refuses .noEntity (finder.search backend true) (finder.search backend.recording true)
        state) ∧
    (∀ entity, finder.entity = some entity →
      Follows backend
        [.rows finder.select.query, .number finder.select.countingQuery, .total entity]
        (fun replies found => ∃ rows matching total,
          replies = [.rows rows, .number matching, .number total] ∧
            found = ⟨rows, some matching, some total⟩)
        (finder.search backend true) (finder.search backend.recording true)) ∧
    (∀ passed entity, passed = some entity ∨ passed = none ∧ finder.entity = some entity →
      Follows backend [.total entity] (fun replies total => replies = [.number total])
        (finder.total backend passed) (finder.total backend.recording passed)) ∧
    ∀ passed state,
      Refuses .noEntity (finder.total backend passed) (finder.total backend.recording passed)
        state ↔ passed = none ∧ finder.entity = none := by
  refine ⟨search_without_counts, fun state hentity => refuses_search hentity state,
    fun entity hentity => search_with_counts hentity, fun passed entity h => ?_,
    fun passed state => refuses_total_iff⟩
  exact total_of_entity (Option.or_eq_some_iff.2 h)

end Finder

/-- A backend that counts the calls and does not know one of the entities. -/
def Backend.counting (missing : String) : Backend (StateM Nat) String String where
  rows _ calls := (.ok ["a", "b"], calls + 1)
  number _ calls := (.ok 2, calls + 1)
  total entity calls := (if entity = missing then .error "offline" else .ok 7, calls + 1)

namespace Finder

/-- The entity of the finder is missing: the third call fails, unless another entity is passed. -/
theorem search_calls_in_turn_missing :
    let request : Request := { Request.empty with select := ["id"] }
    let backend := Backend.counting "archive"
    ∃ select, (Assembler.ofTable "users").assemble request = .ok select ∧
      let finder : Finder := ⟨select, some "archive"⟩
      let script := [Call.rows select.query, .number select.countingQuery, .total "archive"]
      finder.entity = some "archive" ∧
        Follows backend script
          (fun replies found => ∃ rows matching total,
            replies = [.rows rows, .number matching, .number total] ∧
              found = ⟨rows, some matching, some total⟩)
          (finder.search backend true) (finder.search backend.recording true) ∧
        watch (finder.search backend.recording true) 0 [] =
          ((.error (.backend "offline"), script), 3) ∧
        Follows backend [.total "users"] (fun replies total => replies = [.number total])
          (finder.total backend (some "users")) (finder.total backend.recording (some "users")) ∧
        watch (finder.total backend.recording (some "users")) 0 [] =
          ((.ok 7, [.total "users"]), 1) ∧
        Refuses .noEntity ((⟨select, none⟩ : Finder).search backend true)
          ((⟨select, none⟩ : Finder).search backend.recording true) 5 := by
  intro request backend
  obtain ⟨select, hselect⟩ : ∃ select, (Assembler.ofTable "users").assemble request = .ok select :=
    ⟨_, by cbv⟩
  obtain ⟨-, -, hsearch, htotal, -⟩ := search_calls_in_turn ⟨select, some "archive"⟩ backend
  obtain ⟨-, hrefuses, -⟩ := search_calls_in_turn ⟨select, none⟩ backend
  exact ⟨select, hselect, rfl, hsearch "archive" rfl, rfl,
    htotal (some "users") "users" (.inl rfl), rfl, hrefuses 5 rfl⟩

end Finder

end FilterSql
