import ApiScribe.Overlay
import ApiScribe.Proofs.Json.Paths

/-!
# Overlays place by place

What laying one value over another leaves at a path of keys. The document's value stays wherever it is not empty; an
empty or missing value gives way to what the overlay holds there. An object that is not empty keeps its keys in
their order and takes the keys that it lacks behind them. There is one warning for each path at which both hold
something that is not empty, but of different kinds.

The overlay's objects have no key twice, as in every value that was read from a text.
-/

namespace ApiScribe.Overlay

open Json (Value)

/-- One value laid over another. -/
def laid (base overlay : Value) : Value := (merge "" base overlay).1

/-- What is held at a place after something was laid over it, where either may be nothing. -/
def fill : Option Value → Option Value → Option Value
  | some kept, some offered => some (laid kept offered)
  | some kept, none => some kept
  | none, offered => offered

/-- The keys of the object that is held, if it is one. -/
def keysOf : Option Value → List String
  | some value => value.members.map Prod.fst
  | none => []

/-- Whether two values are not empty and of different kinds. -/
def differ (base overlay : Value) : Bool :=
  !isEmpty base && !isEmpty overlay && kindOf base != kindOf overlay

/-- The warning about two values that differ. -/
def warning (pointer : String) (base overlay : Value) : Finding :=
  ⟨pointerSubject pointer, .overrideKind (kindOf overlay).phrase (kindOf base).phrase⟩

/-- An object with members is not empty. -/
theorem isEmpty_eq_false_of_members {value : Value} (h : value.members ≠ []) : isEmpty value = false := by
  cases value with
  | obj members => exact List.isEmpty_eq_false_iff.mpr h
  | _ => exact absurd rfl h

/-- An empty value has no members. -/
theorem members_of_isEmpty {value : Value} (h : isEmpty value = true) : value.members = [] := by
  cases value with
  | obj members => exact List.isEmpty_iff.mp h
  | _ => rfl

/-- A value that is no object has no members. -/
theorem members_of_kind {value : Value} (h : kindOf value ≠ .object) : value.members = [] := by
  cases value with
  | obj members => exact absurd rfl h
  | _ => rfl

/-- A value with members is an object. -/
theorem exists_of_members {value : Value} (h : value.members ≠ []) :
    ∃ member members, value = .obj (member :: members) := by
  cases value with
  | obj members =>
    obtain ⟨member, members, rfl⟩ := List.exists_cons_of_ne_nil h
    exact ⟨member, members, rfl⟩
  | _ => exact absurd rfl h

section Shapes

variable {base overlay : Value} (pointer : String)

/-- An empty value gives way to the override. -/
theorem merge_of_isEmpty (h : isEmpty base = true) : merge pointer base overlay = (overlay, []) := by
  unfold merge
  split
  · cases h
  · rw [if_pos h]

/-- A value that is not empty is kept, unless both are objects. -/
theorem merge_of_kept (hbase : isEmpty base = false) (h : base.members = [] ∨ ∀ entries, overlay ≠ .obj entries) :
    merge pointer base overlay = (base, if differ base overlay then [warning pointer base overlay] else []) := by
  unfold merge
  split
  · next entries =>
    rcases h with hmembers | hoverlay
    · cases hmembers
    · exact absurd rfl (hoverlay entries)
  · simp only [differ, hbase, warning]
    cases isEmpty overlay <;> by_cases hkind : kindOf base = kindOf overlay <;> simp [hkind]

/-- An object that is not empty takes the members of the overlay, of which there are none if it is no object. -/
theorem merge_of_members (h : base.members ≠ []) :
    merge pointer base overlay = (.obj (mergeMembers pointer base.members overlay.members).1,
      (if differ base overlay then [warning pointer base overlay] else []) ++
        (mergeMembers pointer base.members overlay.members).2) := by
  obtain ⟨member, members, rfl⟩ := exists_of_members h
  cases overlay with
  | obj entries =>
    have hsame : differ (.obj (member :: members)) (.obj entries) = false := by simp [differ, kindOf]
    rw [merge, hsame]
    rfl
  | _ =>
    rw [merge_of_kept pointer (isEmpty_eq_false_of_members h) (.inr fun _ heq => by cases heq)]
    simp only [Value.members, mergeMembers, List.append_nil]

end Shapes

section Members

variable {members entries rest : List (String × Value)} {key : String} {value : Value} (pointer : String)

/-- A member whose key is known is merged with what is there. -/
theorem mergeMembers_of_found {existing : Value} (h : Json.lookup key members = some existing) :
    mergeMembers pointer members ((key, value) :: rest) =
      ((mergeMembers pointer (Json.insert key (merge (childPointer pointer key) existing value).1 members) rest).1,
        (merge (childPointer pointer key) existing value).2 ++ (mergeMembers pointer
          (Json.insert key (merge (childPointer pointer key) existing value).1 members) rest).2) := by
  rw [mergeMembers, h]

/-- A member whose key is new is added. -/
theorem mergeMembers_of_missing (h : Json.lookup key members = none) :
    mergeMembers pointer members ((key, value) :: rest) =
      mergeMembers pointer (members ++ [(key, value)]) rest := by
  rw [mergeMembers, h]

/-- The merged members do not depend on where the object stands, if the merged values do not. -/
theorem mergeMembers_fst_eq (other : String)
    (h : ∀ entry ∈ entries, ∀ pointer other base, (merge pointer base entry.2).1 = (merge other base entry.2).1) :
    (mergeMembers pointer members entries).1 = (mergeMembers other members entries).1 := by
  induction entries generalizing members with
  | nil => rfl
  | cons entry rest ih =>
    obtain ⟨key, value⟩ := entry
    rw [List.forall_mem_cons] at h
    cases hfound : Json.lookup key members with
    | none => rw [mergeMembers_of_missing _ hfound, mergeMembers_of_missing _ hfound, ih h.2]
    | some existing =>
      rw [mergeMembers_of_found _ hfound, mergeMembers_of_found _ hfound,
        h.1 (childPointer pointer key) (childPointer other key) existing, ih h.2]

end Members

/-- The merged value does not depend on where it stands. -/
theorem merge_fst (pointer : String) (base overlay : Value) :
    (merge pointer base overlay).1 = laid base overlay := by
  have hany (pointer other : String) (base : Value) :
      (merge pointer base overlay).1 = (merge other base overlay).1 := by
    induction overlay using Value.members_induction generalizing pointer other base with
    | step overlay ih =>
      cases hempty : isEmpty base with
      | true => rw [merge_of_isEmpty pointer hempty, merge_of_isEmpty other hempty]
      | false =>
        by_cases hmembers : base.members = []
        · rw [merge_of_kept pointer hempty (.inl hmembers), merge_of_kept other hempty (.inl hmembers)]
        · rw [merge_of_members pointer hmembers, merge_of_members other hmembers,
            mergeMembers_fst_eq pointer other ih]
  exact hany pointer "" base

section Laid

variable {base overlay : Value}

/-- What is laid over an empty value stays. -/
theorem laid_of_isEmpty (h : isEmpty base = true) : laid base overlay = overlay := by
  rw [laid, merge_of_isEmpty "" h]

/-- A value without members that is not empty stays. -/
theorem laid_of_leaf (hbase : isEmpty base = false) (h : base.members = []) : laid base overlay = base := by
  rw [laid, merge_of_kept "" hbase (.inl h)]

/-- Over members, members are merged. -/
theorem laid_of_members (h : base.members ≠ []) :
    laid base overlay = .obj (mergeMembers "" base.members overlay.members).1 := by
  rw [laid, merge_of_members "" h]

end Laid

section Entries

variable {entries : List (String × Value)} (hdistinct : (entries.map Prod.fst).Nodup) (pointer : String)
  (members : List (String × Value))

include hdistinct

/-- The member under a key is filled with what the overlay holds under it. -/
theorem lookup_mergeMembers (key : String) : Json.lookup key (mergeMembers pointer members entries).1 =
    fill (Json.lookup key members) (Json.lookup key entries) := by
  induction entries generalizing members with
  | nil =>
    rw [mergeMembers]
    cases Json.lookup key members <;> rfl
  | cons entry rest ih =>
    obtain ⟨name, value⟩ := entry
    rw [List.map_cons, List.nodup_cons] at hdistinct
    have hrest : Json.lookup name rest = none := Json.lookup_of_not_mem hdistinct.1
    cases hfound : Json.lookup name members with
    | none =>
      rw [mergeMembers_of_missing _ hfound, ih hdistinct.2, Json.lookup_append]
      by_cases hkey : name = key
      · subst hkey
        rw [hfound, hrest]
        simp [Json.lookup, fill]
      · simp [Json.lookup, hkey]
    | some existing =>
      rw [mergeMembers_of_found _ hfound, ih hdistinct.2, merge_fst]
      by_cases hkey : name = key
      · subst hkey
        rw [Json.lookup_insert_self, hrest, hfound]
        simp [Json.lookup, fill]
      · rw [Json.lookup_insert_of_ne (Ne.symm hkey)]
        simp [Json.lookup, hkey]

/-- The keys stay in their order, and those that were missing follow in the order of the overlay. -/
theorem keys_mergeMembers : (mergeMembers pointer members entries).1.map Prod.fst =
    members.map Prod.fst ++ (entries.map Prod.fst).filter fun key => key ∉ members.map Prod.fst := by
  induction entries generalizing members with
  | nil => simp [mergeMembers]
  | cons entry rest ih =>
    obtain ⟨name, value⟩ := entry
    rw [List.map_cons, List.nodup_cons] at hdistinct
    cases hfound : Json.lookup name members with
    | none =>
      have hnew : name ∉ members.map Prod.fst := fun hmem => by
        rw [← Json.lookup_isSome_iff, hfound] at hmem
        cases hmem
      have hothers : (rest.map Prod.fst).filter (fun key => key ∉ (members ++ [(name, value)]).map Prod.fst) =
          (rest.map Prod.fst).filter fun key => key ∉ members.map Prod.fst := by
        refine List.filter_congr fun key hkey => ?_
        have hne : key ≠ name := fun heq => hdistinct.1 (heq ▸ hkey)
        simp [hne]
      rw [mergeMembers_of_missing _ hfound, ih hdistinct.2, hothers, List.map_cons,
        List.filter_cons_of_pos (by simpa using hnew), List.map_append, List.append_assoc]
      rfl
    | some existing =>
      have hold : name ∈ members.map Prod.fst := Json.lookup_isSome_iff.mp (by rw [hfound]; rfl)
      rw [mergeMembers_of_found _ hfound, ih hdistinct.2, Json.keys_insert_of_lookup _ hfound]
      simp [hold]

/-- Each entry of the overlay is reported against the member of the document under its key. -/
theorem findings_mergeMembers : (mergeMembers pointer members entries).2 =
    entries.flatMap fun entry => ((Json.lookup entry.1 members).map fun kept =>
      (merge (childPointer pointer entry.1) kept entry.2).2).getD [] := by
  induction entries generalizing members with
  | nil => rw [mergeMembers, List.flatMap_nil]
  | cons entry rest ih =>
    obtain ⟨name, value⟩ := entry
    rw [List.map_cons, List.nodup_cons] at hdistinct
    -- No later entry has this name, so the members under later names are still those of the document.
    have hothers (stored : List (String × Value))
        (h : ∀ key, key ≠ name → Json.lookup key stored = Json.lookup key members) :
        (rest.flatMap fun entry => ((Json.lookup entry.1 stored).map fun kept =>
          (merge (childPointer pointer entry.1) kept entry.2).2).getD []) =
        rest.flatMap fun entry => ((Json.lookup entry.1 members).map fun kept =>
          (merge (childPointer pointer entry.1) kept entry.2).2).getD [] := by
      refine List.flatMap_congr fun entry hentry => ?_
      have hmem : entry.1 ∈ rest.map Prod.fst := List.mem_map_of_mem hentry
      rw [h entry.1 fun heq => hdistinct.1 (heq ▸ hmem)]
    rw [List.flatMap_cons]
    cases hfound : Json.lookup name members with
    | none =>
      rw [mergeMembers_of_missing _ hfound, ih hdistinct.2, hothers]
      · rfl
      · intro key hne
        rw [Json.lookup_append]
        simp [Json.lookup, Ne.symm hne]
    | some existing =>
      rw [mergeMembers_of_found _ hfound, ih hdistinct.2, hothers]
      · rfl
      · exact fun key hne => Json.lookup_insert_of_ne hne _ _

end Entries

/-- The members of what is laid over an object that is not empty. -/
theorem lookup_laid {base overlay : Value} (h : overlay.KeysDistinct) (hbase : base.members ≠ []) (key : String) :
    Json.lookup key (laid base overlay).members =
      fill (Json.lookup key base.members) (Json.lookup key overlay.members) := by
  rw [laid_of_members hbase]
  exact lookup_mergeMembers h.keys_nodup "" base.members key

/-- The keys of the document come first, then the new ones of the override. -/
theorem keys_laid {base overlay : Value} (h : overlay.KeysDistinct) (hbase : base.members ≠ []) :
    (laid base overlay).members.map Prod.fst = base.members.map Prod.fst ++
      (overlay.members.map Prod.fst).filter fun key => key ∉ base.members.map Prod.fst := by
  rw [laid_of_members hbase]
  exact keys_mergeMembers h.keys_nodup "" base.members

/-- A value in which something is found has members. -/
theorem members_ne_nil_of_lookup {value inner : Value} {key : String}
    (h : Json.lookup key value.members = some inner) : value.members ≠ [] := by
  intro hnil
  rw [hnil] at h
  cases h

section Held

variable {base overlay : Value}

/-- A value that is neither empty nor an object stays. -/
theorem at?_laid_of_leaf (h : overlay.KeysDistinct) {path : List String} {value : Value}
    (hvalue : base.at? path = some value) (hempty : isEmpty value = false) (hleaf : value.members = []) :
    (laid base overlay).at? path = some value := by
  induction path generalizing base overlay with
  | nil =>
    cases hvalue
    rw [laid_of_leaf hempty hleaf, Value.at?]
  | cons key path ih =>
    obtain ⟨inner, hinner, hvalue⟩ := Option.bind_eq_some_iff.mp hvalue
    rw [Value.at?, lookup_laid h (members_ne_nil_of_lookup hinner), hinner]
    cases hoffered : Json.lookup key overlay.members with
    | none => exact hvalue
    | some offered => exact ih (h.of_lookup hoffered) hvalue

/-- An empty or missing value in an object that is not empty gives way to what the overlay holds. -/
theorem at?_laid_of_gap (h : overlay.KeysDistinct) {path : List String}
    (hgap : ∀ value, base.at? path = some value → isEmpty value = true)
    (hinside : ∀ front, front <+: path → front ≠ path →
      ∃ members, base.at? front = some (.obj members) ∧ members ≠ []) :
    (laid base overlay).at? path = (overlay.at? path).or (base.at? path) := by
  induction path generalizing base overlay with
  | nil =>
    rw [laid_of_isEmpty (hgap base rfl)]
    rfl
  | cons key path ih =>
    obtain ⟨members, hobj, hmembers⟩ := hinside [] List.nil_prefix (List.cons_ne_nil key path).symm
    have hbase : base.members ≠ [] := by
      rw [Option.some.inj hobj]
      exact hmembers
    rw [Value.at?, lookup_laid h hbase, Value.at?, Value.at?]
    cases hinner : Json.lookup key base.members with
    | none => exact (Option.or_none).symm
    | some inner =>
      cases hoffered : Json.lookup key overlay.members with
      | none => rfl
      | some offered =>
        have hat (path : List String) : base.at? (key :: path) = inner.at? path := by
          rw [Value.at?, hinner, Option.bind_some]
        refine ih (h.of_lookup hoffered) (fun value hvalue => hgap value (by rw [hat, hvalue])) ?_
        intro front hfront hne
        rw [← hat]
        exact hinside (key :: front) ((List.prefix_cons_inj key).mpr hfront) fun heq => hne (List.cons.inj heq).2

/-- An object that is not empty keeps its keys and takes those it lacks behind them. -/
theorem keys_at?_laid (h : overlay.KeysDistinct) {path : List String} {members : List (String × Value)}
    (hobj : base.at? path = some (.obj members)) (hmembers : members ≠ []) :
    ∃ merged, (laid base overlay).at? path = some (.obj merged) ∧ merged.map Prod.fst =
      members.map Prod.fst ++ (keysOf (overlay.at? path)).filter fun key => key ∉ members.map Prod.fst := by
  induction path generalizing base overlay with
  | nil =>
    cases hobj
    have hlaid : laid (.obj members) overlay = .obj (mergeMembers "" members overlay.members).1 :=
      laid_of_members hmembers
    exact ⟨_, congrArg some hlaid, keys_mergeMembers h.keys_nodup "" members⟩
  | cons key path ih =>
    obtain ⟨inner, hinner, hobj⟩ := Option.bind_eq_some_iff.mp hobj
    rw [Value.at?, lookup_laid h (members_ne_nil_of_lookup hinner), hinner, Value.at?]
    cases hoffered : Json.lookup key overlay.members with
    | none => exact ⟨members, hobj, (List.append_nil _).symm⟩
    | some offered => exact ih (h.of_lookup hoffered) hobj

end Held

/-- The warning about what two values hold at a path, if that differs. -/
def warningAt? (pointer : String) (base overlay : Value) (path : List String) : Option Finding :=
  (base.at? path).bind fun kept => (overlay.at? path).bind fun offered =>
    if differ kept offered then some (warning (path.foldl childPointer pointer) kept offered) else none

/-- There is a warning at a path exactly if two values meet there that differ in kind. -/
theorem warningAt?_eq_some_iff {pointer : String} {base overlay : Value} {path : List String} {finding : Finding} :
    warningAt? pointer base overlay path = some finding ↔ ∃ kept offered, base.at? path = some kept ∧
      overlay.at? path = some offered ∧ differ kept offered = true ∧
      finding = warning (path.foldl childPointer pointer) kept offered := by
  simp only [warningAt?, Option.bind_eq_some_iff, Option.ite_none_right_eq_some, Option.some_inj]
  constructor
  · rintro ⟨kept, hkept, offered, hoffered, hdiffer, rfl⟩
    exact ⟨kept, offered, hkept, hoffered, hdiffer, rfl⟩
  · rintro ⟨kept, offered, hkept, hoffered, hdiffer, rfl⟩
    exact ⟨kept, hkept, offered, hoffered, hdiffer, rfl⟩

/-- Two values differ if neither is empty and they are of different kinds. -/
theorem differ_iff {base overlay : Value} : differ base overlay = true ↔
    isEmpty base = false ∧ isEmpty overlay = false ∧ kindOf base ≠ kindOf overlay := by
  simp [differ, and_assoc]

/-- The findings at a value itself come before those at its members. -/
theorem findings_merge {overlay : Value} (h : (overlay.members.map Prod.fst).Nodup) (pointer : String)
    (base : Value) : (merge pointer base overlay).2 =
      (if differ base overlay then [warning pointer base overlay] else []) ++
        overlay.members.flatMap fun entry => ((Json.lookup entry.1 base.members).map fun kept =>
          (merge (childPointer pointer entry.1) kept entry.2).2).getD [] := by
  by_cases hmembers : base.members = []
  · rw [hmembers]
    have hnone : (overlay.members.flatMap fun entry => ((Json.lookup entry.1 ([] : List (String × Value))).map
        fun kept => (merge (childPointer pointer entry.1) kept entry.2).2).getD []) = [] :=
      List.flatMap_eq_nil_iff.mpr fun entry _ => rfl
    rw [hnone, List.append_nil]
    cases hempty : isEmpty base with
    | true => simp [merge_of_isEmpty pointer hempty, differ, hempty]
    | false => rw [merge_of_kept pointer hempty (.inl hmembers)]
  · rw [merge_of_members pointer hmembers, findings_mergeMembers h]

/-- The findings are the warnings at the paths of the overlay, in their order. -/
theorem findings_eq_filterMap {overlay : Value} (h : overlay.KeysDistinct) (pointer : String) (base : Value) :
    (merge pointer base overlay).2 = overlay.paths.filterMap (warningAt? pointer base overlay) := by
  induction overlay using Value.members_induction generalizing pointer base with
  | step overlay ih =>
    have hentries : ∀ entry ∈ overlay.members,
        ((Json.lookup entry.1 base.members).map fun kept =>
          (merge (childPointer pointer entry.1) kept entry.2).2).getD [] =
        (entry.2.paths.map (entry.1 :: ·)).filterMap (warningAt? pointer base overlay) := by
      rintro ⟨key, value⟩ hentry
      have hvalue : Json.lookup key overlay.members = some value := Json.lookup_of_mem h.keys_nodup hentry
      rw [List.filterMap_map]
      cases hkept : Json.lookup key base.members with
      | none =>
        refine (List.filterMap_eq_nil_iff.mpr fun path _ => ?_).symm
        simp only [Function.comp, warningAt?, Value.at?, hkept, Option.bind_none]
      | some kept =>
        rw [Option.map_some, Option.getD_some, ih _ hentry (h.of_mem hentry)]
        refine List.filterMap_congr fun path _ => ?_
        simp only [Function.comp, warningAt?, Value.at?, hkept, hvalue, Option.bind_some, List.foldl_cons]
    rw [findings_merge h.keys_nodup, Value.paths_eq, List.filterMap_cons, List.filterMap_flatMap,
      List.flatMap_congr hentries]
    simp only [warningAt?, Value.at?, Option.bind_some, List.foldl_nil]
    cases differ base overlay <;> rfl

/-- The items that give a result, next to their results. -/
theorem forall₂_filterMap {α β : Type} {related : α → β → Prop} {result? : α → Option β} (items : List α)
    (h : ∀ item result, result? item = some result → related item result) :
    List.Forall₂ related (items.filter fun item => (result? item).isSome) (items.filterMap result?) := by
  induction items with
  | nil => exact .nil
  | cons item rest ih =>
    cases hresult : result? item with
    | none => simpa [hresult] using ih
    | some result => simpa [hresult] using ⟨h item result hresult, ih⟩

/-- The document's value stays at every path where it is neither empty nor an object. Where it is empty or missing
inside of objects that are not empty, it gives way to what the overlay holds there, if that holds anything. An
object that is not empty keeps its keys in their order and takes those it lacks, in the order of the overlay. There
is one warning for each path at which both hold something that is not empty, but of different kinds, and it names
the path and the two kinds. -/
theorem merge_first_nonempty_wins (pointer : String) (base overlay : Value) (h : overlay.KeysDistinct) :
    (∀ path value, base.at? path = some value → isEmpty value = false → kindOf value ≠ .object →
      (merge pointer base overlay).1.at? path = some value) ∧
    (∀ path, (∀ value, base.at? path = some value → isEmpty value = true) →
      (∀ front, front <+: path → front ≠ path → ∃ members, base.at? front = some (.obj members) ∧ members ≠ []) →
      (merge pointer base overlay).1.at? path = (overlay.at? path).or (base.at? path)) ∧
    (∀ path members, base.at? path = some (.obj members) → members ≠ [] →
      ∃ merged, (merge pointer base overlay).1.at? path = some (.obj merged) ∧ merged.map Prod.fst =
        members.map Prod.fst ++ (keysOf (overlay.at? path)).filter fun key => key ∉ members.map Prod.fst) ∧
    ∃ places : List (List String), places.Nodup ∧
      (∀ path, path ∈ places ↔ ∃ kept offered, base.at? path = some kept ∧ overlay.at? path = some offered ∧
        isEmpty kept = false ∧ isEmpty offered = false ∧ kindOf kept ≠ kindOf offered) ∧
      List.Forall₂ (fun path finding => ∃ kept offered, base.at? path = some kept ∧
        overlay.at? path = some offered ∧ finding = ⟨pointerSubject (path.foldl childPointer pointer),
          .overrideKind (kindOf offered).phrase (kindOf kept).phrase⟩) places (merge pointer base overlay).2 := by
  rw [merge_fst]
  refine ⟨fun path value hvalue hempty hkind => ?_, fun path => at?_laid_of_gap h,
    fun path members => keys_at?_laid h,
    overlay.paths.filter fun path => (warningAt? pointer base overlay path).isSome,
    (Value.nodup_paths h).filter _, fun path => ?_, ?_⟩
  · exact at?_laid_of_leaf h hvalue hempty (members_of_kind hkind)
  · rw [List.mem_filter, Value.mem_paths_iff h, Option.isSome_iff_exists, Option.isSome_iff_exists]
    constructor
    · rintro ⟨-, finding, hfinding⟩
      obtain ⟨kept, offered, hkept, hoffered, hdiffer, -⟩ := warningAt?_eq_some_iff.mp hfinding
      exact ⟨kept, offered, hkept, hoffered, differ_iff.mp hdiffer⟩
    · rintro ⟨kept, offered, hkept, hoffered, hdiffer⟩
      exact ⟨⟨offered, hoffered⟩, _, warningAt?_eq_some_iff.mpr
        ⟨kept, offered, hkept, hoffered, differ_iff.mpr hdiffer, rfl⟩⟩
  · rw [findings_eq_filterMap h]
    refine forall₂_filterMap overlay.paths fun path finding hfinding => ?_
    obtain ⟨kept, offered, hkept, hoffered, -, rfl⟩ := warningAt?_eq_some_iff.mp hfinding
    exact ⟨kept, offered, hkept, hoffered, rfl⟩

/-- A document with a version and with an empty value of every kind. -/
def described : Value :=
  .obj [("info", .obj [("version", .str "1.0.0"), ("description", .str "")]), ("tags", .arr []), ("paths", .obj []),
    ("security", .null)]

/-- An override of its version by a number, with a contact that the document lacks and a value for what is empty. -/
def describing : Value :=
  .obj [("info", .obj [("contact", .null), ("description", .str "Pets"), ("version", .int 2)]),
    ("tags", .arr [.str "pets"]), ("paths", .obj [("/pets", .obj [])]), ("security", .arr [])]

/-- The version stays and is warned about. The description, the contact and whatever is empty are taken. -/
theorem merge_first_nonempty_wins_info :
    describing.KeysDistinct ∧
    (merge "" described describing).1.at? ["info", "version"] = some (.str "1.0.0") ∧
    (merge "" described describing).1.at? ["info", "description"] = some (.str "Pets") ∧
    (merge "" described describing).1.at? ["tags"] = some (.arr [.str "pets"]) ∧
    (merge "" described describing).1.at? ["paths"] = some (.obj [("/pets", .obj [])]) ∧
    (merge "" described describing).1.at? ["security"] = some (.arr []) ∧
    (∃ merged, (merge "" described describing).1.at? ["info"] = some (.obj merged) ∧
      merged.map Prod.fst = ["version", "description", "contact"]) ∧
    ∃ places : List (List String), ["info", "version"] ∈ places ∧ ["info", "description"] ∉ places ∧
      places.length = (merge "" described describing).2.length := by
  have hdistinct : describing.KeysDistinct := by
    simp [describing, Value.KeysDistinct, Json.membersKeysDistinct, Json.itemsKeysDistinct]
  obtain ⟨hkept, hfilled, hkeys, places, -, hplaces, hwarnings⟩ :=
    merge_first_nonempty_wins "" described describing hdistinct
  have hempty (value : Value) (h : described.at? ["info", "description"] = some value) : isEmpty value = true := by
    cases h
    rfl
  have hinfo (front : List String) (h : front <+: ["info", "description"]) (hne : front ≠ ["info", "description"]) :
      ∃ members, described.at? front = some (.obj members) ∧ members ≠ [] := by
    rcases List.prefix_cons_iff.mp h with rfl | ⟨tail, rfl, htail⟩
    · exact ⟨_, rfl, List.cons_ne_nil _ _⟩
    · rcases List.prefix_cons_iff.mp htail with rfl | ⟨rest, rfl, hrest⟩
      · exact ⟨_, rfl, List.cons_ne_nil _ _⟩
      · exact absurd (List.prefix_nil.mp hrest ▸ rfl) hne
  -- In front of a key of the document itself there is only the document.
  have houter (key : String) (front : List String) (h : front <+: [key]) (hne : front ≠ [key]) :
      ∃ members, described.at? front = some (.obj members) ∧ members ≠ [] := by
    rcases List.prefix_cons_iff.mp h with rfl | ⟨rest, rfl, hrest⟩
    · exact ⟨_, rfl, List.cons_ne_nil _ _⟩
    · exact absurd (List.prefix_nil.mp hrest ▸ rfl) hne
  refine ⟨hdistinct, hkept ["info", "version"] _ rfl rfl (by decide), hfilled _ hempty hinfo,
    hfilled ["tags"] ?_ (houter "tags"), hfilled ["paths"] ?_ (houter "paths"),
    hfilled ["security"] ?_ (houter "security"), hkeys ["info"] _ rfl (List.cons_ne_nil _ _), places, ?_, ?_,
    hwarnings.length_eq⟩
  · rintro value ⟨⟩
    rfl
  · rintro value ⟨⟩
    rfl
  · rintro value ⟨⟩
    rfl
  · exact (hplaces _).mpr ⟨.str "1.0.0", .int 2, rfl, rfl, rfl, rfl, by decide⟩
  · intro hmem
    obtain ⟨kept, -, hkept, -, hfull, -⟩ := (hplaces _).mp hmem
    exact absurd (hempty kept hkept) (by simp [hfull])

end ApiScribe.Overlay
