import ApiScribe.Json.Decode
import ApiScribe.Json.Encode
import ApiScribe.Proofs.SortedEntries
import Mathlib.Data.List.Nodup

/-!
# Decoding what was encoded

A decoder reads a value as a result if it does so at every depth that the value fits in. Lists, maps and
records are read part by part. The object of a record is seen as a row of slots, one for each field in its fixed
order, of which some are left empty; where the slots bear the names of the fields, a field is what its slot holds.

Values come from values here, not from text: repeated keys, which only a text can have, are excluded.
-/

namespace ApiScribe.Json

section Keys

variable {α : Type}

/-- A new key goes to the end. -/
theorem insert_of_not_mem {key : String} (value : α) {members : List (String × α)}
    (h : key ∉ members.map Prod.fst) : insert key value members = members ++ [(key, value)] := by
  induction members with
  | nil => rfl
  | cons first rest ih =>
    rw [List.map_cons, List.mem_cons, not_or] at h
    rw [insert, if_neg (Ne.symm h.1), ih h.2, List.cons_append]

/-- Members under distinct keys are stored as they are. -/
theorem insertAll_of_nodup {members : List (String × α)} (h : (members.map Prod.fst).Nodup) :
    insertAll members = members := by
  have hstored (stored rest : List (String × α)) (h : ((stored ++ rest).map Prod.fst).Nodup) :
      rest.foldl (fun stored member => insert member.1 member.2 stored) stored = stored ++ rest := by
    induction rest generalizing stored with
    | nil => simp
    | cons member rest ih =>
      have hnew : member.1 ∉ stored.map Prod.fst := by
        rw [List.map_append, List.nodup_append] at h
        exact fun hmem => h.2.2 _ hmem _ List.mem_cons_self rfl
      rw [List.foldl_cons, insert_of_not_mem member.2 hnew, ih _ (by simpa using h), List.append_assoc,
        List.singleton_append]
  exact hstored [] members h

/-- Under distinct keys every member is found. -/
theorem lookup_of_mem {key : String} {value : α} {members : List (String × α)}
    (h : (members.map Prod.fst).Nodup) (hmem : (key, value) ∈ members) : lookup key members = some value := by
  induction members with
  | nil => cases hmem
  | cons first rest ih =>
    rw [List.map_cons, List.nodup_cons] at h
    rcases List.mem_cons.mp hmem with rfl | hmem
    · exact if_pos rfl
    · have hne : first.1 ≠ key := fun hkey => h.1 (hkey ▸ List.mem_map_of_mem hmem)
      rw [lookup, if_neg hne]
      exact ih h.2 hmem

/-- Nothing is found under a key that is not there. -/
theorem lookup_of_not_mem {key : String} {members : List (String × α)} (h : key ∉ members.map Prod.fst) :
    lookup key members = none := by
  induction members with
  | nil => rfl
  | cons first rest ih =>
    rw [List.map_cons, List.mem_cons, not_or] at h
    rw [lookup, if_neg (Ne.symm h.1)]
    exact ih h.2

/-- What is found in changed members is changed. -/
theorem lookup_map {β : Type} (f : α → β) (key : String) (members : List (String × α)) :
    lookup key (members.map fun member => (member.1, f member.2)) = (lookup key members).map f := by
  induction members with
  | nil => rfl
  | cons first rest ih => by_cases h : first.1 = key <;> simp [lookup, h, ih]

/-- Members whose values do not change stay as they are. -/
theorem map_values_eq_self {f : α → α} {members : List (String × α)}
    (h : ∀ member ∈ members, f member.2 = member.2) :
    members.map (fun member => (member.1, f member.2)) = members := by
  have hsame : ∀ member ∈ members, (member.1, f member.2) = member := fun member hmember =>
    Prod.ext rfl (h member hmember)
  exact (List.map_congr_left hsame).trans (List.map_id' _)

end Keys

/-- The trees of items are made one by one. -/
theorem itemsToTrees_eq (items : List Value) : itemsToTrees items = items.map Value.toTree := by
  induction items with
  | nil => rfl
  | cons item rest ih => rw [itemsToTrees, ih, List.map_cons]

/-- The trees of members are made one by one. -/
theorem membersToTrees_eq (members : List (String × Value)) :
    membersToTrees members = members.map fun member => (some member.1, member.2.toTree) := by
  induction members with
  | nil => rfl
  | cons member rest ih => rw [membersToTrees, ih, List.map_cons]

/-- An item is nested no deeper than the list. -/
theorem nesting_le_of_mem_items {value : Value} {items : List Value} (h : value ∈ items) :
    value.nesting ≤ itemsNesting items := by
  induction items with
  | nil => cases h
  | cons item rest ih =>
    rw [itemsNesting]
    rcases List.mem_cons.mp h with rfl | h
    · exact Nat.le_max_left _ _
    · exact Nat.le_trans (ih h) (Nat.le_max_right _ _)

/-- A member is nested no deeper than the object. -/
theorem nesting_le_of_mem_members {key : String} {value : Value} {members : List (String × Value)}
    (h : (key, value) ∈ members) : value.nesting ≤ membersNesting members := by
  induction members with
  | nil => cases h
  | cons member rest ih =>
    rw [membersNesting]
    rcases List.mem_cons.mp h with rfl | h
    · exact Nat.le_max_left _ _
    · exact Nat.le_trans (ih h) (Nat.le_max_right _ _)

/-- A depth that something nested fits in has room for its parts one level down. -/
theorem exists_lower {inner depth : Nat} (h : inner + 1 ≤ depth) : ∃ lower, depth = lower + 1 ∧ inner ≤ lower :=
  ⟨depth - 1, by omega, by omega⟩

mutual

/-- No object in a value has a key twice. -/
def Value.KeysDistinct : Value → Prop
  | .arr items => itemsKeysDistinct items
  | .obj members => (members.map Prod.fst).Nodup ∧ membersKeysDistinct members
  | _ => True

/-- No object in the items has a key twice. -/
def itemsKeysDistinct : List Value → Prop
  | [] => True
  | item :: rest => item.KeysDistinct ∧ itemsKeysDistinct rest

/-- No object in the members has a key twice. -/
def membersKeysDistinct : List (String × Value) → Prop
  | [] => True
  | (_, value) :: rest => value.KeysDistinct ∧ membersKeysDistinct rest

end

mutual

/-- A value is read back from its tree at any depth that it fits in. -/
theorem toValueWithin?_toTree {value : Value} (h : value.KeysDistinct) {depth : Nat}
    (hdepth : value.nesting ≤ depth) : Tree.toValueWithin? depth value.toTree = some value := by
  match value with
  | .null | .bool _ | .int _ | .float _ | .str _ => cases depth <;> rfl
  | .arr items =>
    obtain ⟨depth, rfl, hinner⟩ := exists_lower hdepth
    rw [Value.toTree, Tree.toValueWithin?, itemsToValues?_toTrees h hinner]
    rfl
  | .obj members =>
    obtain ⟨depth, rfl, hinner⟩ := exists_lower hdepth
    rw [Value.toTree, Tree.toValueWithin?, membersToValues?_toTrees h.2 hinner,
      Option.map_some, insertAll_of_nodup h.1]

/-- The trees of items are read back as the items. -/
theorem itemsToValues?_toTrees {items : List Value} (h : itemsKeysDistinct items) {depth : Nat}
    (hdepth : itemsNesting items ≤ depth) : Tree.itemsToValues? depth (itemsToTrees items) = some items := by
  match items with
  | [] => rfl
  | item :: rest =>
    rw [itemsNesting, Nat.max_le] at hdepth
    rw [itemsToTrees, Tree.itemsToValues?, toValueWithin?_toTree h.1 hdepth.1, itemsToValues?_toTrees h.2 hdepth.2]
    rfl

/-- The trees of members are read back as the members. -/
theorem membersToValues?_toTrees {members : List (String × Value)} (h : membersKeysDistinct members) {depth : Nat}
    (hdepth : membersNesting members ≤ depth) :
    Tree.membersToValues? depth (membersToTrees members) = some members := by
  match members with
  | [] => rfl
  | (key, value) :: rest =>
    rw [membersNesting, Nat.max_le] at hdepth
    rw [membersToTrees, Tree.membersToValues?, toValueWithin?_toTree h.1 hdepth.1,
      membersToValues?_toTrees h.2 hdepth.2]
    rfl

end

/-- The decoder reads the value as the result at every depth that the value fits in. -/
def Reads {α : Type} (decode : Decoder α) (value : Value) (result : α) : Prop :=
  ∀ depth, value.nesting ≤ depth → decode depth value.toTree = some result

namespace Reads

variable {α β : Type} {decode : Decoder β}

/-- What is read back is decoded. -/
theorem ofValue? {value : Value} {result : β} (h : Reads decode value result) :
    decode.ofValue? value = some result :=
  h value.nesting (Nat.le_refl _)

/-- A text is read back. -/
theorem text (value : String) : Reads Decoder.text (.str value) value := fun _ _ => rfl

/-- A flag is read back. -/
theorem flag (value : Bool) : Reads Decoder.flag (.bool value) value := fun _ _ => rfl

/-- A value is read back. -/
theorem value {value : Value} (h : value.KeysDistinct) : Reads Decoder.value value value :=
  fun _ hdepth => toValueWithin?_toTree h hdepth

/-- A word of a vocabulary is read as what it stands for. -/
theorem word {ofName? : String → Option β} {name : String} {meaning : β} (h : ofName? name = some meaning) :
    Reads (Decoder.word ofName?) (.str name) meaning := by
  intro depth hdepth
  cases depth <;> exact h

/-- What is read back and is not null is read back where null is allowed. -/
theorem nullable {value : Value} {result : β} (h : Reads decode value result) (hvalue : value ≠ .null) :
    Reads (Decoder.nullable decode) value (some result) := by
  intro depth hdepth
  have htree : Decoder.nullable decode depth value.toTree = (decode depth value.toTree).map some := by
    cases value with
    | null => exact absurd rfl hvalue
    | _ => rfl
  rw [htree, h depth hdepth, Option.map_some]

/-- Null is read back as nothing where it is allowed. -/
theorem nullable_null : Reads (Decoder.nullable decode) .null none := fun _ _ => rfl

/-- Where every item has an answer, the list has. -/
theorem mapM_eq_some {γ : Type} {f : α → Option γ} {g : α → γ} {items : List α}
    (h : ∀ item ∈ items, f item = some (g item)) : items.mapM f = some (items.map g) := by
  induction items with
  | nil => rfl
  | cons item rest ih =>
    rw [List.forall_mem_cons] at h
    rw [List.mapM_cons, h.1, ih h.2]
    rfl

variable {encode : α → Value} {restore : α → β}

/-- A list is read item by item. -/
theorem listOf {items : List α} (h : ∀ item ∈ items, Reads decode (encode item) (restore item)) :
    Reads (Decoder.listOf decode) (.arr (items.map encode)) (items.map restore) := by
  intro depth hdepth
  obtain ⟨depth, rfl, hinner⟩ := exists_lower hdepth
  rw [Value.toTree, Decoder.listOf, itemsToTrees_eq, List.map_map, List.mapM_map]
  refine mapM_eq_some fun item hitem => h item hitem depth ?_
  exact Nat.le_trans (nesting_le_of_mem_items (List.mem_map_of_mem hitem)) hinner

variable {entries : List (String × α)}

/-- The members of an object are read one by one. -/
theorem membersOf (h : ∀ entry ∈ entries, Reads decode (encode entry.2) (restore entry.2)) :
    Reads (Decoder.membersOf decode) (.obj (entries.map fun entry => (entry.1, encode entry.2)))
      (entries.map fun entry => (entry.1, restore entry.2)) := by
  intro depth hdepth
  obtain ⟨depth, rfl, hinner⟩ := exists_lower hdepth
  rw [Value.toTree, Decoder.membersOf, membersToTrees_eq, List.map_map, List.mapM_map]
  refine mapM_eq_some fun entry hentry => ?_
  have hread : decode depth (encode entry.2).toTree = some (restore entry.2) := by
    refine h entry hentry depth (le_trans ?_ hinner)
    exact nesting_le_of_mem_members (List.mem_map_of_mem hentry)
  simp [hread]

variable (encode restore) in
/-- A map under distinct keys is read as it is. -/
theorem mapOf (hkeys : (entries.map Prod.fst).Nodup)
    (h : ∀ entry ∈ entries, Reads decode (encode entry.2) (restore entry.2)) :
    Reads (Decoder.mapOf decode) (.obj (entries.map fun entry => (entry.1, encode entry.2)))
      (entries.map fun entry => (entry.1, restore entry.2)) := by
  intro depth hdepth
  have hrestored : ((entries.map fun entry => (entry.1, restore entry.2)).map Prod.fst).Nodup := by
    rw [List.map_map]
    exact hkeys
  rw [Decoder.mapOf, membersOf h depth hdepth, Option.map_some, insertAll_of_nodup hrestored]

end Reads

/-- The members that slots hold, in order. -/
def present (slots : List (String × Option Value)) : List (String × Value) :=
  slots.filterMap fun slot => slot.2.map fun value => (slot.1, value)

/-- The slot of a list that is written unless it is empty. -/
def listSlot (items : List Value) : Option Value := if items.isEmpty then none else some (.arr items)

/-- The slot of an object that is written unless it is empty. -/
def objectSlot (members : List (String × Value)) : Option Value :=
  if members.isEmpty then none else some (.obj members)

/-- Slots are present one by one. -/
theorem present_append (slots more : List (String × Option Value)) :
    present (slots ++ more) = present slots ++ present more :=
  List.filterMap_append

/-- A member is a slot that is filled. -/
theorem member_eq_present (key : String) (value : Value) : member key value = present [(key, some value)] := rfl

/-- An optional member is a slot that may be empty. -/
theorem optional_eq_present {α : Type} (key : String) (encode : α → Value) (value : Option α) :
    optional key encode value = present [(key, value.map encode)] := by
  cases value <;> rfl

/-- A list that is left out when empty is a slot. -/
theorem unlessEmpty_eq_present (key : String) (items : List Value) :
    unlessEmpty key items = present [(key, listSlot items)] := by
  cases items <;> rfl

/-- An object that is left out when empty is a slot. -/
theorem unlessEmptyObject_eq_present (key : String) (members : List (String × Value)) :
    unlessEmptyObject key members = present [(key, objectSlot members)] := by
  cases members <;> rfl

/-- Present keys stand in the order of the slots. -/
theorem keys_present_sublist (slots : List (String × Option Value)) :
    ((present slots).map Prod.fst).Sublist (slots.map Prod.fst) := by
  induction slots with
  | nil => exact .slnil
  | cons slot rest ih =>
    obtain ⟨name, value⟩ := slot
    cases value with
    | none => exact ih.cons name
    | some value => exact ih.cons_cons name

/-- A member is present exactly if its slot is filled with it. -/
theorem mem_present_iff {slots : List (String × Option Value)} {name : String} {value : Value} :
    (name, value) ∈ present slots ↔ (name, some value) ∈ slots := by
  rw [present, List.mem_filterMap]
  constructor
  · rintro ⟨⟨key, held⟩, hslot, heq⟩
    obtain ⟨found, rfl, heq⟩ := Option.map_eq_some_iff.mp heq
    cases heq
    exact hslot
  · exact fun hslot => ⟨(name, some value), hslot, rfl⟩

/-- Under distinct names a slot decides what is found under its name. -/
theorem lookup_present {slots : List (String × Option Value)} (hnames : (slots.map Prod.fst).Nodup) {name : String}
    {held : Option Value} (hslot : (name, held) ∈ slots) : lookup name (present slots) = held := by
  cases held with
  | some value =>
    exact lookup_of_mem (hnames.sublist (keys_present_sublist slots)) (mem_present_iff.mpr hslot)
  | none =>
    refine lookup_of_not_mem fun hmem => ?_
    obtain ⟨⟨key, value⟩, hmember, rfl⟩ := List.mem_map.mp hmem
    -- Two slots of one name are the same slot, which is empty and holds a value.
    have hsame := List.inj_on_of_nodup_map hnames (mem_present_iff.mp hmember) hslot rfl
    cases hsame

/-- A value in a slot nests less deep than the object. -/
theorem nesting_le_of_slot {slots : List (String × Option Value)} {name : String} {value : Value}
    (hslot : (name, some value) ∈ slots) : value.nesting ≤ membersNesting (present slots) :=
  nesting_le_of_mem_members (mem_present_iff.mpr hslot)

namespace Decoder.Fields

/-- The fields are what the slots of a record hold. -/
structure Hold (fields : Fields) (slots : List (String × Option Value)) : Prop where
  lookup {name : String} {held : Option Value} (hslot : (name, held) ∈ slots) :
    Json.lookup name fields.present = held.map Value.toTree
  nesting {name : String} {value : Value} (hslot : (name, some value) ∈ slots) : value.nesting ≤ fields.depth

namespace Hold

variable {α β : Type} {fields : Fields} {slots : List (String × Option Value)} (h : fields.Hold slots)
  (name : String)

include h

/-- A filled slot is found by its name. -/
theorem required (value : Value) (hslot : (name, some value) ∈ slots) {decode : Decoder β} {result : β}
    (hreads : Reads decode value result) : fields.required name decode = some result := by
  rw [Fields.required, h.lookup hslot, Option.map_some, Option.bind_some]
  exact hreads fields.depth (h.nesting hslot)

/-- A slot is found by its name, or it is empty. -/
theorem optional (encode : α → Value) (value : Option α) (hslot : (name, value.map encode) ∈ slots)
    {decode : Decoder β} {restore : α → Option β}
    (hreads : ∀ found, value = some found → Reads (Decoder.nullable decode) (encode found) (restore found)) :
    fields.optional name decode = some (value.bind restore) := by
  rw [Fields.optional, h.lookup hslot]
  cases value with
  | none => rfl
  | some found => exact hreads found rfl fields.depth (h.nesting hslot)

/-- An optional field that is never written as null is read part by part. -/
theorem optional_map (encode : α → Value) (value : Option α) (hslot : (name, value.map encode) ∈ slots)
    {decode : Decoder β} {restore : α → β} (hnull : ∀ found, encode found ≠ .null)
    (hreads : ∀ found, value = some found → Reads decode (encode found) (restore found)) :
    fields.optional name decode = some (value.map restore) := by
  rw [h.optional name encode value hslot fun found hfound => (hreads found hfound).nullable (hnull found)]
  cases value <;> rfl

/-- A slot for a text is found by its name. -/
theorem optional_text (value : Option String) (hslot : (name, value.map .str) ∈ slots) :
    fields.optional name Decoder.text = some value := by
  rw [h.optional_map name .str value hslot (fun _ => nofun) fun found _ => Reads.text found, Option.map_id']

/-- A slot for a flag is found by its name. -/
theorem optional_flag (value : Option Bool) (hslot : (name, value.map .bool) ∈ slots) :
    fields.optional name Decoder.flag = some value := by
  rw [h.optional_map name .bool value hslot (fun _ => nofun) fun found _ => Reads.flag found, Option.map_id']

/-- A list that is left out when it is empty is read item by item. -/
theorem defaulted_list (encode : α → Value) (items : List α) (hslot : (name, listSlot (items.map encode)) ∈ slots)
    {decode : Decoder β} {restore : α → β} (hreads : ∀ item ∈ items, Reads decode (encode item) (restore item)) :
    fields.defaulted name (Decoder.listOf decode) = some (items.map restore) := by
  rw [Fields.defaulted, h.lookup hslot]
  cases items with
  | nil => rfl
  | cons first rest => exact Reads.listOf hreads fields.depth (h.nesting hslot)

/-- A map that is left out when it is empty is read member by member. -/
theorem defaulted_map (encode : α → Value) (entries : List (String × α))
    (hslot : (name, objectSlot (entries.map fun entry => (entry.1, encode entry.2))) ∈ slots)
    (hkeys : (entries.map Prod.fst).Nodup) {decode : Decoder β} {restore : α → β}
    (hreads : ∀ entry ∈ entries, Reads decode (encode entry.2) (restore entry.2)) :
    fields.defaulted name (Decoder.mapOf decode) = some (entries.map fun entry => (entry.1, restore entry.2)) := by
  rw [Fields.defaulted, h.lookup hslot]
  cases entries with
  | nil => rfl
  | cons first rest => exact Reads.mapOf encode restore hkeys hreads fields.depth (h.nesting hslot)

end Hold

end Decoder.Fields

/-- The fields of an object are its slots. -/
theorem exists_fields {specs : List FieldSpec} {slots : List (String × Option Value)}
    (hspecs : slots.map Prod.fst = specs.map FieldSpec.name) (hnames : (specs.map FieldSpec.name).Nodup)
    {depth : Nat} (hdepth : (Value.obj (present slots)).nesting ≤ depth) :
    ∃ fields, Decoder.fields specs depth (Value.obj (present slots)).toTree = some fields ∧ fields.Hold slots := by
  obtain ⟨depth, rfl, hinner⟩ := exists_lower hdepth
  rw [← hspecs] at hnames
  have hkeys : ((present slots).map fun member => (member.1, member.2.toTree)).map Prod.fst =
      (present slots).map Prod.fst := by
    rw [List.map_map]
    rfl
  -- Every member has the name of a field, so none is passed over.
  have hknown : (((present slots).map fun member => (member.1, member.2.toTree)).filter fun member =>
      specs.any fun spec => spec.name = member.1) =
        (present slots).map fun member => (member.1, member.2.toTree) := by
    refine List.filter_eq_self.mpr fun member hmember => ?_
    have hname := (keys_present_sublist slots).subset (hkeys ▸ List.mem_map_of_mem hmember)
    rw [hspecs] at hname
    obtain ⟨spec, hspec, hname⟩ := List.mem_map.mp hname
    exact List.any_eq_true.mpr ⟨spec, hspec, decide_eq_true hname⟩
  refine ⟨⟨depth, (present slots).map fun member => (member.1, member.2.toTree)⟩,
    ?_, fun hslot => ?_, fun hslot => ?_⟩
  · rw [Value.toTree, Decoder.fields, membersToTrees_eq, List.mapM_map,
      Reads.mapM_eq_some (g := fun member => (member.1, member.2.toTree)) fun member _ => ?keyed]
    case keyed => rfl
    dsimp only [Option.bind_eq_bind, Option.bind_some]
    rw [hknown, hkeys, if_pos (hnames.sublist (keys_present_sublist slots))]
  · rw [lookup_map, lookup_present hnames hslot]
  · exact Nat.le_trans (nesting_le_of_slot hslot) hinner

/-- A record is read if its slots bear the names of its fields and the fields are read from the slots. -/
theorem Reads.record {α : Type} {specs : List FieldSpec} {slots : List (String × Option Value)}
    (hspecs : slots.map Prod.fst = specs.map FieldSpec.name) (hnames : (specs.map FieldSpec.name).Nodup)
    {build : Decoder.Fields → Option α} {result : α}
    (h : ∀ fields : Decoder.Fields, fields.Hold slots → build fields = some result) :
    Reads (fun depth tree => Decoder.fields specs depth tree >>= build) (.obj (present slots)) result := by
  intro depth hdepth
  obtain ⟨fields, hfields, hhold⟩ := exists_fields hspecs hnames hdepth
  dsimp only
  rw [hfields, Option.bind_eq_bind, Option.bind_some]
  exact h fields hhold

end ApiScribe.Json
