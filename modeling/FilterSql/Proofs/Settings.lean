import FilterSql.Proofs.Bindings
import FilterSql.Proofs.Sequence
import FilterSql.Request.OfJson
import Mathlib.Data.List.Perm.Basic

/-! What the keys of a request document say. One key says a setting of the request, and settings of
different keys commute; a join looks its keys up. So the request that is read depends neither on the
order of the keys nor on keys that nothing reads. -/

namespace FilterSql

/-! ### Objects -/

/-- No key occurs twice, and both objects have the same fields among those that are read, in any
order. -/
structure SameFields {α : Type} (isRead : String → Bool) (fields fields' : List (String × α)) :
    Prop where
  nodup : (fields.map Prod.fst).Nodup
  nodup' : (fields'.map Prod.fst).Nodup
  perm : (fields.filter fun field => isRead field.1).Perm
    (fields'.filter fun field => isRead field.1)

theorem SameFields.lookup_eq {α : Type} {isRead : String → Bool}
    {fields fields' : List (String × α)} (h : SameFields isRead fields fields') (key : String)
    (hkey : isRead key = true) : fields.lookup key = fields'.lookup key := by
  ext value
  have hmem := h.perm.mem_iff (a := (key, value))
  simp only [List.mem_filter, hkey, and_true] at hmem
  rw [Assoc.lookup_eq_some_iff_mem h.nodup, hmem, Assoc.lookup_eq_some_iff_mem h.nodup']

/-! ### Joins -/

namespace JoinRequest

/-- The keys of a join. -/
def isKey (text : String) : Bool := text ∈ ["table", "type", "alias", "condition"]

theorem ofFields_eq_of_sameFields {fields fields' : List (String × Json)}
    (h : SameFields isKey fields fields') : ofFields fields = ofFields fields' := by
  have htable := h.lookup_eq "table" (by decide)
  have htype := h.lookup_eq "type" (by decide)
  have halias := h.lookup_eq "alias" (by decide)
  have hcondition := h.lookup_eq "condition" (by decide)
  unfold ofFields requiredText
  rw [htable, htype, halias, hcondition]

/-- The other element of a list of joins has the same fields among those that are read. -/
inductive Rearranged : Json → Json → Prop where
  | same (element : Json) : Rearranged element element
  | object {fields fields' : List (String × Json)} (h : SameFields isKey fields fields') :
      Rearranged (.object fields) (.object fields')

theorem ofJson_of_rearranged {element element' : Json} (h : Rearranged element element') :
    ofJson element = ofJson element' := by
  cases h with
  | same => rfl
  | object h => exact ofFields_eq_of_sameFields h

end JoinRequest

namespace Request

theorem Key.ofText?_eq_some {text : String} {key : Key} (h : ofText? text = some key) :
    text = key.text := by
  have htext := List.find?_some h
  exact (of_decide_eq_true htext).symm

/-- The key of a field is one of a request document. -/
def isKey (text : String) : Bool := (Key.ofText? text).isSome

/-! ### Settings -/

/-- What one key of a document says. -/
inductive Setting where
  | select (columns : List String)
  | filter (restriction : Option Filter)
  | order (terms : List OrderTerm)
  | group (columns : List String)
  | joins (declared : List JoinRequest)
  | take (count : UInt64)
  | skip (count : UInt64)

namespace Setting

def key : Setting → Key
  | .select _ => .select
  | .filter _ => .filter
  | .order _ => .order
  | .group _ => .group
  | .joins _ => .joins
  | .take _ => .take
  | .skip _ => .skip

def ofJson (key : Key) (value : Json) : Except RequestFault Setting :=
  match key with
  | .select => (namesOfJson .select value).map .select
  | .filter => .ok (.filter (Filter.ofJson? value))
  | .order => (orderOfJson value).map .order
  | .group => (namesOfJson .group value).map .group
  | .joins => (joinsOfJson value).map .joins
  | .take => (boundOfJson .take value).map .take
  | .skip => (boundOfJson .skip value).map .skip

def apply (request : Request) : Setting → Request
  | .select columns => { request with select := columns }
  | .filter restriction => { request with filter := restriction }
  | .order terms => { request with order := terms }
  | .group columns => { request with group := some columns }
  | .joins declared => { request with joins := declared }
  | .take count => { request with window := { request.window with take := some count } }
  | .skip count => { request with window := { request.window with skip := some count } }

theorem apply_comm {setting setting' : Setting} (h : setting.key ≠ setting'.key)
    (request : Request) :
    apply (apply request setting) setting' = apply (apply request setting') setting := by
  cases setting <;> cases setting' <;> first | rfl | exact absurd rfl h

theorem key_of_ofJson {key : Key} {value : Json} {setting : Setting}
    (h : ofJson key value = .ok setting) : setting.key = key := by
  cases key with
  | filter =>
      obtain rfl := Except.ok.inj h
      rfl
  | _ =>
      obtain ⟨_, -, rfl⟩ := map_eq_ok.1 h
      rfl

end Setting

/-- What a field of the document says, if it has a key that is read. -/
def settingOf (field : String × Json) : Except RequestFault (Option Setting) :=
  match Key.ofText? field.1 with
  | none => .ok none
  | some key => (Setting.ofJson key field.2).map some

def set (request : Request) (setting : Option Setting) : Request :=
  setting.elim request (Setting.apply request)

theorem withField_eq_map (request : Request) (field : String × Json) :
    request.withField field = (settingOf field).map request.set := by
  unfold withField settingOf
  cases Key.ofText? field.1 with
  | none => rfl
  | some key => cases key <;> simp only [Setting.ofJson, map_map] <;> rfl

theorem foldlM_withField (fields : List (String × Json)) (request : Request) :
    fields.foldlM withField request = (fields.mapM settingOf).map (List.foldl set request) :=
  foldlM_eq_map_foldl withField_eq_map fields request

theorem key_of_settingOf {field : String × Json} {setting : Setting}
    (h : settingOf field = .ok (some setting)) : field.1 = setting.key.text := by
  unfold settingOf at h
  split at h
  · simp at h
  · next key hkey =>
      obtain ⟨found, hfound, hsome⟩ := map_eq_ok.1 h
      obtain rfl := Option.some.inj hsome
      rw [Setting.key_of_ofJson hfound]
      exact Key.ofText?_eq_some hkey

/-- Fields with different keys say things that commute. -/
theorem set_comm {field field' : String × Json} {setting setting' : Option Setting}
    (hfield : settingOf field = .ok setting) (hfield' : settingOf field' = .ok setting')
    (hne : field.1 ≠ field'.1) (request : Request) :
    set (set request setting) setting' = set (set request setting') setting := by
  cases setting with
  | none => rfl
  | some setting =>
      cases setting' with
      | none => rfl
      | some setting' =>
          apply Setting.apply_comm
          intro hkey
          apply hne
          rw [key_of_settingOf hfield, key_of_settingOf hfield', hkey]

/-- The order of the fields does not matter. -/
theorem foldlM_withField_perm {fields fields' : List (String × Json)} (hperm : fields.Perm fields')
    (hnodup : (fields.map Prod.fst).Nodup) {request result : Request}
    (h : fields.foldlM withField request = .ok result) :
    fields'.foldlM withField request = .ok result := by
  rw [foldlM_withField] at h ⊢
  obtain ⟨settings, hsettings, rfl⟩ := map_eq_ok.1 h
  rw [mapM_eq_ok] at hsettings
  obtain ⟨settings', hsettings', hsame⟩ := List.perm_comp_forall₂ hperm.symm hsettings
  have hcomm : ∀ setting ∈ settings', ∀ setting' ∈ settings', ∀ request,
      set (set request setting) setting' = set (set request setting') setting := by
    intro setting hsetting setting' hsetting' request
    obtain ⟨field, hfield, hread⟩ := exists_mem_of_forall₂ hsettings' hsetting
    obtain ⟨field', hfield', hread'⟩ := exists_mem_of_forall₂ hsettings' hsetting'
    by_cases hkey : field.1 = field'.1
    · have hnodup' : (fields'.map Prod.fst).Nodup := (hperm.map Prod.fst).nodup_iff.1 hnodup
      obtain rfl := List.inj_on_of_nodup_map hnodup' hfield hfield' hkey
      rw [Except.ok.inj (hread.symm.trans hread')]
    · exact set_comm hread hread' hkey request
  rw [mapM_eq_ok.2 hsettings']
  exact map_eq_ok.2 ⟨settings', rfl, hsame.foldl_eq' hcomm request⟩

/-- Fields that nothing reads say nothing. -/
theorem foldlM_withField_filter (fields : List (String × Json)) (request : Request) :
    (fields.filter fun field => isKey field.1).foldlM withField request =
      fields.foldlM withField request := by
  induction fields generalizing request with
  | nil => rfl
  | cons field fields ih =>
      rw [List.filter_cons]
      cases hkey : Key.ofText? field.1 with
      | some key =>
          rw [if_pos (by simp [isKey, hkey]), List.foldlM_cons, List.foldlM_cons]
          exact bind_congr ih
      | none =>
          have hskip : request.withField field = .ok request := by rw [withField, hkey]
          rw [if_neg (by simp [isKey, hkey]), List.foldlM_cons, hskip, ih]
          rfl

theorem foldlM_withField_of_sameFields {fields fields' : List (String × Json)}
    (h : SameFields isKey fields fields') {request result : Request} :
    fields.foldlM withField request = .ok result ↔
      fields'.foldlM withField request = .ok result := by
  have hfiltered : ∀ {fields : List (String × Json)}, (fields.map Prod.fst).Nodup →
      ((fields.filter fun field => isKey field.1).map Prod.fst).Nodup :=
    fun hnodup => hnodup.sublist (List.filter_sublist.map Prod.fst)
  rw [← foldlM_withField_filter fields, ← foldlM_withField_filter fields']
  exact ⟨foldlM_withField_perm h.perm (hfiltered h.nodup),
    foldlM_withField_perm h.perm.symm (hfiltered h.nodup')⟩

/-! ### Rearranged documents -/

/-- The field is the same, or it holds the joins and their elements are rearranged. -/
inductive FieldRearranged : String × Json → String × Json → Prop where
  | same (field : String × Json) : FieldRearranged field field
  | joins {elements elements' : List Json}
      (h : List.Forall₂ JoinRequest.Rearranged elements elements') :
      FieldRearranged ("joins", .array elements) ("joins", .array elements')

/-- The keys of the elements of the joins and those of the document are permuted, and keys that
nothing reads are added or removed. -/
def Rearranged (fields fields' : List (String × Json)) : Prop :=
  ∃ middle, List.Forall₂ FieldRearranged fields middle ∧ SameFields isKey middle fields'

theorem mapM_ofJson_of_rearranged {elements elements' : List Json}
    (h : List.Forall₂ JoinRequest.Rearranged elements elements') :
    elements.mapM JoinRequest.ofJson = elements'.mapM JoinRequest.ofJson := by
  induction h with
  | nil => rfl
  | cons helement _ ih =>
      rw [List.mapM_cons, List.mapM_cons, JoinRequest.ofJson_of_rearranged helement, ih]

theorem settingOf_of_rearranged {field field' : String × Json} (h : FieldRearranged field field') :
    settingOf field = settingOf field' := by
  cases h with
  | same => rfl
  | @joins elements elements' h =>
      have hjoins : joinsOfJson (.array elements) = joinsOfJson (.array elements') :=
        mapM_ofJson_of_rearranged h
      show (Setting.ofJson .joins (.array elements)).map some =
        (Setting.ofJson .joins (.array elements')).map some
      rw [Setting.ofJson, Setting.ofJson, hjoins]

theorem foldlM_withField_of_rearranged {fields fields' : List (String × Json)}
    (h : Rearranged fields fields') {request result : Request} :
    fields.foldlM withField request = .ok result ↔
      fields'.foldlM withField request = .ok result := by
  obtain ⟨middle, hfields, hsame⟩ := h
  have hmiddle : fields.mapM settingOf = middle.mapM settingOf := by
    clear hsame
    induction hfields with
    | nil => rfl
    | cons hfield _ ih => rw [List.mapM_cons, List.mapM_cons, settingOf_of_rearranged hfield, ih]
  rw [← foldlM_withField_of_sameFields hsame, foldlM_withField, foldlM_withField, hmiddle]

end Request

end FilterSql
