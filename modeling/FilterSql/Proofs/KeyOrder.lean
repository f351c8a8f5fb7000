import FilterSql.Proofs.Settings

/-! Request documents with their keys in any order. A document is read exactly when each of its keys
takes its value and a column is selected, and rearranging it does not change the request. Of several
faults that of the first faulty key is reported, and a missing select list only after all keys. -/

namespace FilterSql

namespace Request

/-! ### Values -/

/-- The ways to write a direction. -/
def directions : List Json :=
  [.string "asc", .string "ASC", .string "1", .string "desc", .string "DESC", .string "-1", .int 1,
    .int (-1)]

/-- The document is a join: it names a table and a known type, and an alias at most. -/
def IsJoin (document : Json) : Prop :=
  ∃ fields, document = .object fields ∧
    (∃ table, fields.lookup "table" = some (.string table)) ∧
    (∃ text, fields.lookup "type" = some (.string text) ∧
      String.ofList (text.toList.map Char.toLower) ∈ ["left", "inner"]) ∧
    (fields.lookup "alias" = none ∨ fields.lookup "alias" = some .null ∨
      ∃ aliasName, fields.lookup "alias" = some (.string aliasName))

/-- The value may stand beside the key. -/
def Key.Takes : Key → Json → Prop
  | .select, value => ∃ names : List String, value = .array (names.map .string)
  | .filter, _ => True
  | .order, value => ∃ terms, value = .object terms ∧ ∀ term ∈ terms, term.2 ∈ directions
  | .group, value => ∃ names : List String, value = .array (names.map .string)
  | .joins, value => ∃ elements, value = .array elements ∧ ∀ element ∈ elements, IsJoin element
  | .take, value => ∃ bound : UInt64, value = .int bound.toNat
  | .skip, value => ∃ bound : UInt64, value = .int bound.toNat

theorem itemsOfJson_eq_ok {key : Key} {value : Json} {items : List Json} :
    itemsOfJson key value = .ok items ↔ value = .array items := by
  cases value <;> simp [itemsOfJson]

theorem entryOfJson_eq_ok {key : Key} {value : Json} {text : String} :
    entryOfJson key value = .ok text ↔ value = .string text := by
  cases value <;> simp [entryOfJson]

theorem namesOfJson_eq_ok {key : Key} {value : Json} {names : List String} :
    namesOfJson key value = .ok names ↔ value = .array (names.map .string) := by
  have hitems : ∀ items : List Json,
      items.mapM (entryOfJson key) = .ok names ↔ items = names.map .string := by
    intro items
    rw [mapM_eq_ok, ← List.forall₂_eq_eq_eq, List.forall₂_map_right_iff]
    simp only [entryOfJson_eq_ok]
  constructor
  · intro h
    obtain ⟨items, hvalue, hnames⟩ := bind_eq_ok.1 h
    rw [itemsOfJson_eq_ok.1 hvalue, (hitems items).1 hnames]
  · rintro rfl
    exact bind_eq_ok.2 ⟨_, itemsOfJson_eq_ok.2 rfl, (hitems _).2 rfl⟩

theorem natural?_eq_some {value : Json} {bound : UInt64} :
    value.natural? = some bound ↔ value = .int bound.toNat := by
  constructor
  · intro h
    unfold Json.natural? at h
    split at h
    · next integer =>
        split at h
        · next hrange =>
            obtain rfl := Option.some.inj h
            have hbound : integer.toNat < UInt64.size := by omega
            have hinteger : (integer.toNat : Int) = integer := Int.toNat_of_nonneg hrange.1
            rw [UInt64.toNat_ofNat_of_lt' hbound, hinteger]
            rfl
        · simp at h
    · simp at h
  · rintro rfl
    have hrange : (0 : Int) ≤ bound.toNat ∧ (bound.toNat : Int) < UInt64.size := by
      have hlt := bound.toNat_lt_size
      omega
    simp only [Json.natural?, Json.int, if_pos hrange, Int.toNat_natCast, UInt64.ofNat_toNat]

theorem boundOfJson_eq_ok {key : Key} {value : Json} {bound : UInt64} :
    boundOfJson key value = .ok bound ↔ value = .int bound.toNat := by
  rw [← natural?_eq_some, boundOfJson]
  cases value.natural? <;> simp

theorem exists_direction_iff {column : String} {value : Json} :
    (∃ direction, Direction.ofJson column value = .ok direction) ↔ value ∈ directions := by
  unfold Direction.ofJson directions
  split <;> simp_all [Json.int]

theorem exists_joinKind_iff {text : String} :
    (∃ kind, JoinKind.ofText text = .ok kind) ↔
      String.ofList (text.toList.map Char.toLower) ∈ ["left", "inner"] := by
  have hnames : ∀ name, (∃ kind, JoinKind.ofName? name = some kind) ↔ name ∈ ["left", "inner"] := by
    intro name
    rw [← Option.isSome_iff_exists, JoinKind.ofName?, List.find?_isSome]
    simp [JoinKind.all, JoinKind.name, eq_comm]
  rw [← hnames, JoinKind.ofText, ← JoinKind.ofText?]
  cases JoinKind.ofText? text <;> simp

theorem exists_aliasOfJson?_iff {value : Option Json} :
    (∃ aliasName, JoinRequest.aliasOfJson? value = .ok aliasName) ↔
      value = none ∨ value = some .null ∨ ∃ aliasName, value = some (.string aliasName) := by
  unfold JoinRequest.aliasOfJson?
  split <;> simp_all

theorem requiredText_eq_ok {fields : List (String × Json)} {key text : String}
    {fault : DocumentFault} :
    JoinRequest.requiredText fields key fault = .ok text ↔
      fields.lookup key = some (.string text) := by
  unfold JoinRequest.requiredText
  split <;> simp_all

theorem exists_join_iff {document : Json} :
    (∃ join, JoinRequest.ofJson document = .ok join) ↔ IsJoin document := by
  constructor
  · rintro ⟨join, h⟩
    cases document with
    | object fields =>
        obtain ⟨table, htable, h⟩ := bind_eq_ok.1 h
        obtain ⟨text, htext, h⟩ := bind_eq_ok.1 h
        obtain ⟨kind, hkind, h⟩ := bind_eq_ok.1 h
        obtain ⟨aliasName, halias, -⟩ := bind_eq_ok.1 h
        exact ⟨fields, rfl, ⟨table, requiredText_eq_ok.1 htable⟩,
          ⟨text, requiredText_eq_ok.1 htext, exists_joinKind_iff.1 ⟨kind, hkind⟩⟩,
          exists_aliasOfJson?_iff.1 ⟨aliasName, halias⟩⟩
    | _ => simp [JoinRequest.ofJson] at h
  · rintro ⟨fields, rfl, ⟨table, htable⟩, ⟨text, htext, hlower⟩, halias⟩
    obtain ⟨kind, hkind⟩ := exists_joinKind_iff.2 hlower
    obtain ⟨aliasName, haliasName⟩ := exists_aliasOfJson?_iff.2 halias
    exact ⟨_, bind_eq_ok.2 ⟨table, requiredText_eq_ok.2 htable, bind_eq_ok.2 ⟨text,
      requiredText_eq_ok.2 htext, bind_eq_ok.2 ⟨kind, hkind, bind_eq_ok.2 ⟨aliasName, haliasName,
        rfl⟩⟩⟩⟩⟩

theorem exists_order_iff {value : Json} :
    (∃ terms, orderOfJson value = .ok terms) ↔
      ∃ terms, value = .object terms ∧ ∀ term ∈ terms, term.2 ∈ directions := by
  cases value with
  | object terms =>
      rw [orderOfJson, exists_mapM_eq_ok]
      simp only [exists_map_eq_ok, exists_direction_iff, Json.object.injEq, exists_eq_left']
  | _ => simp [orderOfJson]

theorem exists_joins_iff {value : Json} :
    (∃ joins, joinsOfJson value = .ok joins) ↔
      ∃ elements, value = .array elements ∧ ∀ element ∈ elements, IsJoin element := by
  simp only [← exists_join_iff, ← exists_mapM_eq_ok]
  constructor
  · rintro ⟨joins, h⟩
    obtain ⟨elements, hvalue, hjoins⟩ := bind_eq_ok.1 h
    exact ⟨elements, itemsOfJson_eq_ok.1 hvalue, joins, hjoins⟩
  · rintro ⟨elements, rfl, joins, hjoins⟩
    exact ⟨joins, bind_eq_ok.2 ⟨elements, itemsOfJson_eq_ok.2 rfl, hjoins⟩⟩

theorem Setting.exists_ofJson_iff {key : Key} {value : Json} :
    (∃ setting, ofJson key value = .ok setting) ↔ key.Takes value := by
  cases key with
  | select => simp only [ofJson, exists_map_eq_ok, namesOfJson_eq_ok, Key.Takes]
  | filter => simp [ofJson, Key.Takes]
  | order => simp only [ofJson, exists_map_eq_ok, exists_order_iff, Key.Takes]
  | group => simp only [ofJson, exists_map_eq_ok, namesOfJson_eq_ok, Key.Takes]
  | joins => simp only [ofJson, exists_map_eq_ok, exists_joins_iff, Key.Takes]
  | take => simp only [ofJson, exists_map_eq_ok, boundOfJson_eq_ok, Key.Takes]
  | skip => simp only [ofJson, exists_map_eq_ok, boundOfJson_eq_ok, Key.Takes]

/-! ### Documents -/

/-- If the key of the field is read, it takes the value. -/
def FieldIsValid (field : String × Json) : Prop :=
  ∀ key, Key.ofText? field.1 = some key → key.Takes field.2

/-- The document selects a column. -/
def SelectsSome (fields : List (String × Json)) : Prop :=
  ∃ items, ("select", Json.array items) ∈ fields ∧ items ≠ []

theorem exists_settingOf_iff {field : String × Json} :
    (∃ setting, settingOf field = .ok setting) ↔ FieldIsValid field := by
  unfold settingOf FieldIsValid
  cases Key.ofText? field.1 with
  | none => simp
  | some key => simp [exists_map_eq_ok, Setting.exists_ofJson_iff]

theorem exists_foldlM_iff {fields : List (String × Json)} {request : Request} :
    (∃ result, fields.foldlM withField request = .ok result) ↔
      ∀ field ∈ fields, FieldIsValid field := by
  rw [foldlM_withField, exists_map_eq_ok, exists_mapM_eq_ok]
  simp only [exists_settingOf_iff]

theorem select_withField {field : String × Json} {request result : Request}
    (hkey : field.1 ≠ "select") (h : request.withField field = .ok result) :
    result.select = request.select := by
  rw [withField_eq_map] at h
  obtain ⟨setting, hsetting, rfl⟩ := map_eq_ok.1 h
  cases setting with
  | none => rfl
  | some setting =>
      have htext := key_of_settingOf hsetting
      cases setting with
      | select columns => exact absurd htext hkey
      | _ => rfl

theorem select_foldlM {fields : List (String × Json)} {request result : Request}
    (hkeys : ∀ field ∈ fields, field.1 ≠ "select")
    (h : fields.foldlM withField request = .ok result) : result.select = request.select := by
  induction fields generalizing request with
  | nil =>
      obtain rfl := pure_eq_ok.1 h
      rfl
  | cons field fields ih =>
      rw [List.forall_mem_cons] at hkeys
      rw [List.foldlM_cons] at h
      obtain ⟨next, hnext, h⟩ := bind_eq_ok.1 h
      rw [ih hkeys.2 h, select_withField hkeys.1 hnext]

/-- The select list of the request is the one of the document, wherever that stands. -/
theorem select_of_mem {fields : List (String × Json)} (hnodup : (fields.map Prod.fst).Nodup)
    {value : Json} (hmem : ("select", value) ∈ fields) {request : Request}
    (h : fields.foldlM withField empty = .ok request) :
    value = .array (request.select.map .string) := by
  obtain ⟨before, after, rfl⟩ := List.append_of_mem hmem
  have hperm : (before ++ ("select", value) :: after).Perm
      (before ++ after ++ [("select", value)]) :=
    List.perm_middle.trans (List.perm_append_singleton _ _).symm
  have hlast := foldlM_withField_perm hperm hnodup h
  rw [List.foldlM_append] at hlast
  obtain ⟨middle, -, hlast⟩ := bind_eq_ok.1 hlast
  obtain ⟨result, hresult, hlast⟩ := bind_eq_ok.1 hlast
  obtain rfl := pure_eq_ok.1 hlast
  obtain ⟨columns, hcolumns, rfl⟩ := map_eq_ok.1 hresult
  exact namesOfJson_eq_ok.1 hcolumns

theorem select_ne_nil_iff {fields : List (String × Json)} (hnodup : (fields.map Prod.fst).Nodup)
    {request : Request} (h : fields.foldlM withField empty = .ok request) :
    request.select ≠ [] ↔ SelectsSome fields := by
  constructor
  · intro hselect
    by_contra hnone
    apply hselect
    have hkeys : ∀ field ∈ fields, field.1 ≠ "select" := by
      rintro ⟨key, value⟩ hfield rfl
      have hvalue := select_of_mem hnodup hfield h
      rw [hvalue] at hfield
      exact hnone ⟨_, hfield, by simpa using hselect⟩
    exact select_foldlM hkeys h
  · rintro ⟨items, hmem, hitems⟩ hselect
    have hvalue := select_of_mem hnodup hmem h
    rw [hselect] at hvalue
    exact hitems (Json.array.inj hvalue)

theorem ofJson_object_eq_ok {fields : List (String × Json)} {request : Request} :
    ofJson (.object fields) = .ok request ↔
      fields.foldlM withField empty = .ok request ∧ request.select ≠ [] := by
  constructor
  · intro h
    obtain ⟨result, hresult, h⟩ := bind_eq_ok.1 h
    split at h
    · simp at h
    · next hselect =>
        obtain rfl := pure_eq_ok.1 h
        exact ⟨hresult, by simpa using hselect⟩
  · rintro ⟨hrequest, hselect⟩
    have hselect' : request.select.isEmpty = false := by simpa using hselect
    refine bind_eq_ok.2 ⟨request, hrequest, ?_⟩
    rw [hselect']
    rfl

theorem ofJson_object_eq_error {fields : List (String × Json)} {fault : RequestFault} :
    ofJson (.object fields) = .error fault ↔
      fields.foldlM withField empty = .error fault ∨
        ∃ request, fields.foldlM withField empty = .ok request ∧ request.select = [] ∧
          fault = .emptySelect := by
  have hend : ∀ request : Request,
      (if request.select.isEmpty then .error .emptySelect else pure request :
        Except RequestFault Request) = .error fault ↔
      request.select = [] ∧ fault = .emptySelect := by
    intro request
    by_cases hselect : request.select = []
    · simp [hselect, eq_comm]
    · simp [hselect, pure_ne_error]
  rw [ofJson, bind_eq_error]
  simp only [hend]

/-! ### Faults -/

theorem namesOfJson_ne_emptySelect (key : Key) (value : Json) :
    namesOfJson key value ≠ .error .emptySelect := by
  intro h
  rcases bind_eq_error.1 h with h | ⟨items, -, h⟩
  · cases value <;> simp [itemsOfJson] at h
  · obtain ⟨item, -, h⟩ := exists_mem_of_mapM_eq_error h
    cases item <;> simp [entryOfJson] at h

theorem join_ne_emptySelect (document : Json) :
    JoinRequest.ofJson document ≠ .error .emptySelect := by
  intro h
  cases document with
  | object fields =>
      rcases bind_eq_error.1 h with h | ⟨table, -, h⟩
      · unfold JoinRequest.requiredText at h
        split at h <;> simp at h
      rcases bind_eq_error.1 h with h | ⟨text, -, h⟩
      · unfold JoinRequest.requiredText at h
        split at h <;> simp at h
      rcases bind_eq_error.1 h with h | ⟨kind, -, h⟩
      · unfold JoinKind.ofText at h
        split at h <;> simp at h
      rcases bind_eq_error.1 h with h | ⟨aliasName, -, h⟩
      · unfold JoinRequest.aliasOfJson? at h
        split at h <;> simp at h
      · exact pure_ne_error h
  | _ => simp [JoinRequest.ofJson] at h

theorem orderOfJson_ne_emptySelect (value : Json) : orderOfJson value ≠ .error .emptySelect := by
  intro h
  cases value with
  | object terms =>
      obtain ⟨term, -, h⟩ := exists_mem_of_mapM_eq_error h
      rw [map_eq_error] at h
      unfold Direction.ofJson at h
      split at h <;> simp at h
  | _ => simp [orderOfJson] at h

theorem joinsOfJson_ne_emptySelect (value : Json) : joinsOfJson value ≠ .error .emptySelect := by
  intro h
  rcases bind_eq_error.1 h with h | ⟨elements, -, h⟩
  · cases value <;> simp [itemsOfJson] at h
  · obtain ⟨element, -, h⟩ := exists_mem_of_mapM_eq_error h
    exact join_ne_emptySelect element h

theorem boundOfJson_ne_emptySelect (key : Key) (value : Json) :
    boundOfJson key value ≠ .error .emptySelect := by
  intro h
  unfold boundOfJson at h
  split at h <;> simp at h

/-- No field by itself lacks a select list. -/
theorem settingOf_ne_emptySelect (field : String × Json) :
    settingOf field ≠ .error .emptySelect := by
  intro h
  unfold settingOf at h
  split at h
  · simp at h
  · next key hkey =>
      rw [map_eq_error] at h
      cases key with
      | select => exact namesOfJson_ne_emptySelect _ _ (map_eq_error.1 h)
      | filter => simp [Setting.ofJson] at h
      | order => exact orderOfJson_ne_emptySelect _ (map_eq_error.1 h)
      | group => exact namesOfJson_ne_emptySelect _ _ (map_eq_error.1 h)
      | joins => exact joinsOfJson_ne_emptySelect _ (map_eq_error.1 h)
      | take => exact boundOfJson_ne_emptySelect _ _ (map_eq_error.1 h)
      | skip => exact boundOfJson_ne_emptySelect _ _ (map_eq_error.1 h)

theorem withField_eq_error {request : Request} {field : String × Json} {fault : RequestFault} :
    request.withField field = .error fault ↔ settingOf field = .error fault := by
  rw [withField_eq_map, map_eq_error]

theorem not_fieldIsValid_of_error {field : String × Json} {fault : RequestFault}
    (h : settingOf field = .error fault) : ¬FieldIsValid field := by
  intro hvalid
  obtain ⟨setting, hsetting⟩ := exists_settingOf_iff.2 hvalid
  rw [h] at hsetting
  contradiction

/-- The fields fail with what the first faulty one of them fails with by itself. -/
theorem foldlM_withField_eq_error {fields : List (String × Json)} {request : Request}
    {fault : RequestFault} :
    fields.foldlM withField request = .error fault ↔
      ∃ before field after, fields = before ++ field :: after ∧
        (∀ other ∈ before, FieldIsValid other) ∧ ¬FieldIsValid field ∧
        request.withField field = .error fault ∧ fault ≠ .emptySelect := by
  rw [foldlM_withField, map_eq_error, mapM_eq_error]
  simp only [exists_settingOf_iff, withField_eq_error]
  constructor
  · rintro ⟨before, field, after, hfields, hbefore, hfault⟩
    have hne : fault ≠ .emptySelect := by
      rintro rfl
      exact settingOf_ne_emptySelect field hfault
    exact ⟨before, field, after, hfields, hbefore, not_fieldIsValid_of_error hfault, hfault, hne⟩
  · rintro ⟨before, field, after, hfields, hbefore, -, hfault, -⟩
    exact ⟨before, field, after, hfields, hbefore, hfault⟩

/-- The request of a document does not depend on the order of the keys, in the document or in its
joins, nor on keys that nothing reads. There is one exactly when every key that is read takes its
value and a column is selected. Otherwise the fault is the one that the first faulty key gives by
itself, and a missing select list is reported only when no key is faulty. -/
theorem ofJson_ignores_key_order {fields : List (String × Json)}
    (hnodup : (fields.map Prod.fst).Nodup) :
    (∀ fields', Rearranged fields fields' → ∀ request,
      ofJson (.object fields) = .ok request ↔ ofJson (.object fields') = .ok request) ∧
    ((∃ request, ofJson (.object fields) = .ok request) ↔
      (∀ field ∈ fields, FieldIsValid field) ∧ SelectsSome fields) ∧
    ∀ fault, ofJson (.object fields) = .error fault ↔
      (∃ before field after, fields = before ++ field :: after ∧
        (∀ other ∈ before, FieldIsValid other) ∧ ¬FieldIsValid field ∧
        empty.withField field = .error fault ∧ fault ≠ .emptySelect) ∨
      (∀ field ∈ fields, FieldIsValid field) ∧ ¬SelectsSome fields ∧ fault = .emptySelect := by
  refine ⟨?_, ?_, ?_⟩
  · intro fields' hrearranged request
    rw [ofJson_object_eq_ok, ofJson_object_eq_ok, foldlM_withField_of_rearranged hrearranged]
  · rw [← exists_foldlM_iff]
    constructor
    · rintro ⟨request, hrequest⟩
      obtain ⟨hrequest, hselect⟩ := ofJson_object_eq_ok.1 hrequest
      exact ⟨⟨request, hrequest⟩, (select_ne_nil_iff hnodup hrequest).1 hselect⟩
    · rintro ⟨⟨request, hrequest⟩, hselects⟩
      have hselect := (select_ne_nil_iff hnodup hrequest).2 hselects
      exact ⟨request, ofJson_object_eq_ok.2 ⟨hrequest, hselect⟩⟩
  · intro fault
    rw [ofJson_object_eq_error]
    apply or_congr
    · exact foldlM_withField_eq_error
    · rw [← exists_foldlM_iff]
      constructor
      · rintro ⟨request, hrequest, hselect, hfault⟩
        have hnone : ¬SelectsSome fields :=
          fun hselects => (select_ne_nil_iff hnodup hrequest).2 hselects hselect
        exact ⟨⟨request, hrequest⟩, hnone, hfault⟩
      · rintro ⟨⟨request, hrequest⟩, hnone, hfault⟩
        have hselect : request.select = [] := by
          by_contra hselect
          exact hnone ((select_ne_nil_iff hnodup hrequest).1 hselect)
        exact ⟨request, hrequest, hselect, hfault⟩

/-- A document and the same one backwards, with the keys of its join exchanged and a key that
nothing reads. -/
theorem ofJson_ignores_key_order_reversed :
    let join := [("table", Json.string "items"), ("type", Json.string "left")]
    let fields :=
      [("select", Json.array [.string "id"]), ("joins", .array [.object join]), ("take", .int 3)]
    let fields' :=
      [("take", Json.int 3), ("hint", .null), ("joins", .array [.object join.reverse]),
        ("select", .array [.string "id"])]
    ∃ request, ofJson (.object fields) = .ok request ∧ ofJson (.object fields') = .ok request := by
  intro join fields fields'
  let middle :=
    [("select", Json.array [.string "id"]), ("joins", .array [.object join.reverse]),
      ("take", .int 3)]
  have hjoin : SameFields JoinRequest.isKey join join.reverse :=
    ⟨by decide, by decide, (List.reverse_perm join).symm.filter _⟩
  have hfields : List.Forall₂ FieldRearranged fields middle :=
    .cons (.same _) (.cons (.joins (.cons (.object hjoin) .nil)) (.cons (.same _) .nil))
  have hread : (fields'.filter fun field => isKey field.1) = middle.reverse := rfl
  have hmiddle : SameFields isKey middle fields' := by
    refine ⟨by decide, by decide, ?_⟩
    rw [hread]
    exact (List.reverse_perm middle).symm
  obtain ⟨request, hrequest⟩ : ∃ request, ofJson (.object fields) = .ok request := ⟨_, rfl⟩
  have hnodup : (fields.map Prod.fst).Nodup := by decide
  obtain ⟨hsame, -, -⟩ := ofJson_ignores_key_order hnodup
  exact ⟨request, hrequest, (hsame fields' ⟨middle, hfields, hmiddle⟩ request).1 hrequest⟩

end Request

end FilterSql
