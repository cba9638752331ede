import ApiScribe.Proofs.Survey.Basic
import ApiScribe.Proofs.Synthesis.Fields
import Mathlib.Logic.Relation

/-!
# Chains of aliases

An alias passes on to the declared name at the core of what it stands for, and a chain of aliases can end in a
component. While the aliases of such a chain are being expanded, the component is built, and what it shows is
cut off where it passes one of them. The main result says when this changes the schema of the component:
exactly if one of the aliases is passed from a name that the component shows.
-/

namespace ApiScribe

/-- The schema of a type refers to what the schema of its core refers to. -/
@[simp] theorem TypeExpr.refers_enclose (type : TypeExpr) (core : Schema) (ref : String) :
    (type.enclose core).Refers ref ↔ core.Refers ref := by
  induction type with
  | pointer inner ih => exact ih
  | array inner ih => exact (Schema.refers_arrayOf _ ref).trans ih
  | map key value _ ih => exact (Schema.refers_mapOf _ ref).trans ih
  | _ => rfl

namespace Table

/-- An alias stands for a type around a declared name. -/
def Next (table : Table) (name next : QualifiedName) : Prop :=
  ∃ type, table.aliasOf? name = some type ∧ table.leaf name.module type = .declared next

/-- Expanding a name passes another one, if nothing is cut off. -/
def Passes (table : Table) : QualifiedName → QualifiedName → Prop := Relation.ReflTransGen table.Next

/-- A chain of aliases leads from an alias to a component. -/
def Leads (table : Table) (expanded : QualifiedName) : Prop :=
  ∃ component, table.isComponent component ∧ Relation.TransGen table.Next expanded component

variable {table : Table} {aliases : List QualifiedName} {name next expanded component : QualifiedName}

/-- An alias passes on to one name only. -/
theorem Next.eq {other : QualifiedName} (h : table.Next name next) (h' : table.Next name other) :
    next = other := by
  obtain ⟨type, halias, hleaf⟩ := h
  obtain ⟨type', halias', hleaf'⟩ := h'
  cases Option.some.inj (halias.symm.trans halias')
  exact Leaf.declared.inj (hleaf.symm.trans hleaf')

/-- A component passes on to nothing. -/
theorem Next.not_isComponent (h : table.Next name next) : ¬ table.isComponent name := by
  obtain ⟨type, halias, -⟩ := h
  intro hcomponent
  rw [aliasOf?_of_isComponent hcomponent] at halias
  cases halias

/-- What a name on a cycle passes is on a cycle, so it is no component. -/
theorem Passes.not_isComponent (h : table.Passes name next)
    (hcycle : Relation.TransGen table.Next name name) : ¬ table.isComponent next := by
  have hnext : Relation.TransGen table.Next next next := by
    induction h with
    | refl => exact hcycle
    | tail _ hstep ih =>
      obtain ⟨other, hother, hback⟩ := Relation.TransGen.head'_iff.mp ih
      exact hstep.eq hother ▸ Relation.TransGen.tail' hback hother
  obtain ⟨other, hother, -⟩ := Relation.TransGen.head'_iff.mp hnext
  exact hother.not_isComponent

/-- An alias that is not cut off is shown as what the next name is shown as, in its type. -/
theorem Next.shown_refers (h : table.Next name next) (hname : name ∉ aliases) (ref : String) :
    (table.shown aliases name).Refers ref ↔ (table.shown (name :: aliases) next).Refers ref := by
  obtain ⟨type, halias, hleaf⟩ := h
  rw [shown, render_expand halias hname, hleaf]
  exact type.refers_enclose _ ref

/-- Aliases that a name does not pass make no difference to how it is shown. -/
theorem shown_congr {more : List QualifiedName} (haliases : aliases ⊆ more)
    (hmore : ∀ expanded ∈ more, expanded ∈ aliases ∨ ¬ table.Passes name expanded) :
    table.shown more name = table.shown aliases name := by
  induction aliases, name using render.induct table generalizing more with
  | case1 aliases name _ hcomponent =>
    rw [shown, shown, render_component hcomponent, render_component hcomponent]
  | case2 aliases name halias hcomponent =>
    have hcomponent := Bool.eq_false_iff.mpr hcomponent
    rw [shown, shown, render_kind halias hcomponent, render_kind halias hcomponent]
  | case3 aliases name type halias hname =>
    rw [shown, shown, render_cut halias (haliases hname), render_cut halias hname]
  | case4 aliases name type halias hname hleaf | case5 aliases name type halias hname _ hleaf =>
    have hname' : name ∉ more := fun h => (hmore name h).elim hname (absurd .refl)
    rw [shown, shown, render_expand halias hname', render_expand halias hname, hleaf]
    rfl
  | case6 aliases name type halias hname next hleaf ih =>
    have hname' : name ∉ more := fun h => (hmore name h).elim hname (absurd .refl)
    have hnext : table.Next name next := ⟨type, halias, hleaf⟩
    have hinner : table.shown (name :: more) next = table.shown (name :: aliases) next := by
      refine ih (List.cons_subset_cons name haliases) fun expanded halias => ?_
      rcases List.mem_cons.mp halias with rfl | halias
      · exact .inl List.mem_cons_self
      · exact (hmore expanded halias).imp (List.mem_cons_of_mem _) fun hpasses h => hpasses (.head hnext h)
    rw [shown, shown, render_expand halias hname', render_expand halias hname, hleaf]
    exact congrArg type.enclose hinner

/-- A name that passes an alias being expanded refers to nothing. -/
theorem Passes.not_refers (h : table.Passes name expanded) (hnext : table.Next expanded next)
    (halias : expanded ∈ aliases) (ref : String) : ¬ (table.shown aliases name).Refers ref := by
  have hcut {name other : QualifiedName} {aliases : List QualifiedName} (hnext : table.Next name other)
      (hname : name ∈ aliases) : ¬ (table.shown aliases name).Refers ref := by
    obtain ⟨type, hsome, -⟩ := hnext
    rw [shown, render_cut hsome hname]
    exact Schema.not_refers_empty ref
  induction h using Relation.ReflTransGen.head_induction_on generalizing aliases with
  | refl => exact hcut hnext halias
  | @head name other hother _ ih =>
    by_cases hname : name ∈ aliases
    · exact hcut hother hname
    · rw [hother.shown_refers hname]
      exact ih (List.mem_cons_of_mem _ halias)

/-- A name whose chain ends in a component refers to it, unless the chain passes an alias being expanded. -/
theorem Passes.refers (h : table.Passes name component) (hcomponent : table.isComponent component)
    (haliases : ∀ expanded ∈ aliases, ¬ table.Passes name expanded) :
    (table.shown aliases name).Refers (Schema.componentsLead ++ table.componentName component) := by
  induction h using Relation.ReflTransGen.head_induction_on generalizing aliases with
  | refl =>
    rw [shown, render_component hcomponent]
    exact (Schema.refers_referenceTo _ _).mpr rfl
  | @head name next hnext hpasses ih =>
    have hname : name ∉ aliases := fun h => haliases name h .refl
    rw [hnext.shown_refers hname]
    refine ih fun expanded halias hback => ?_
    rcases List.mem_cons.mp halias with rfl | halias
    · exact Passes.not_isComponent hpasses (Relation.TransGen.tail' hback hnext) hcomponent
    · exact haliases expanded halias (.head hnext hback)

/-- What is asked for when a name is shown is the component at the end of its chain, and the aliases that are
being expanded by then lead to it. -/
theorem mem_render_requests {request : Request} (h : request ∈ (table.render aliases name).requests) :
    table.isComponent request.name ∧ table.Passes name request.name ∧
      ∀ expanded ∈ request.aliases,
        expanded ∈ aliases ∨ Relation.TransGen table.Next expanded request.name := by
  induction aliases, name using render.induct table with
  | case1 aliases name _ hcomponent =>
    rw [render_component hcomponent] at h
    cases List.mem_singleton.mp h
    exact ⟨hcomponent, .refl, fun _ => .inl⟩
  | case2 aliases name halias hcomponent =>
    rw [render_kind halias (Bool.eq_false_iff.mpr hcomponent)] at h
    exact absurd h List.not_mem_nil
  | case3 aliases name type halias hname =>
    rw [render_cut halias hname] at h
    exact absurd h List.not_mem_nil
  | case4 aliases name type halias hname hleaf | case5 aliases name type halias hname _ hleaf =>
    rw [render_expand halias hname, hleaf] at h
    exact absurd h List.not_mem_nil
  | case6 aliases name type halias hname next hleaf ih =>
    rw [render_expand halias hname, hleaf] at h
    obtain ⟨hcomponent, hpasses, haliases⟩ := ih h
    have hnext : table.Next name next := ⟨type, halias, hleaf⟩
    refine ⟨hcomponent, .head hnext hpasses, fun expanded halias => ?_⟩
    rcases haliases expanded halias with halias | hleads
    · rcases List.mem_cons.mp halias with rfl | halias
      · exact .inr (Relation.TransGen.head' hnext hpasses)
      · exact .inl halias
    · exact .inr hleads

end Table

/-- Storing commutes with a change of the values. -/
theorem Json.map_insert {α β : Type} (f : α → β) (key : String) (value : α) (members : List (String × α)) :
    (Json.insert key value members).map (Prod.map id f) =
      Json.insert key (f value) (members.map (Prod.map id f)) := by
  induction members with
  | nil => rfl
  | cons member rest ih =>
    obtain ⟨other, first⟩ := member
    by_cases hkey : other = key <;> simp [Json.insert, hkey, ih]

/-- Values may be changed before or after they are stored. -/
theorem Json.map_insertAll {α β : Type} (f : α → β) (members : List (String × α)) :
    (Json.insertAll members).map (Prod.map id f) = Json.insertAll (members.map (Prod.map id f)) := by
  induction members using List.reverseRecOn with
  | nil => rfl
  | append_singleton members member ih =>
    rw [insertAll_concat, map_insert, ih, List.map_append, List.map_singleton, insertAll_concat]
    rfl

/-- A core depends on how the name that it shows is shown. -/
theorem Leaf.schema?_congr {leaf : Leaf} {shown shown' : QualifiedName → Schema}
    (h : ∀ name, leaf.shownName? = some name → shown name = shown' name) :
    leaf.schema? shown = leaf.schema? shown' := by
  cases leaf with
  | missing | plain => rfl
  | declared name => rw [schema?, schema?, h name rfl]

/-- A property refers to what the name that it shows refers to. -/
theorem Content.schema_refers {content : Content} {name : QualifiedName} (h : content.shownName? = some name)
    (shown : QualifiedName → Schema) (ref : String) :
    (content.schema shown).Refers ref ↔ (shown name).Refers ref := by
  cases content with
  | fixed schema named => cases h
  | through other type remarks =>
    cases Option.some.inj h
    exact (Schema.refers_withDetails _ remarks ref).trans (type.refers_enclose _ ref)

/-- A property depends on how the name that it shows is shown. -/
theorem Content.schema_congr {content : Content} {shown shown' : QualifiedName → Schema}
    (h : ∀ name, content.shownName? = some name → shown name = shown' name) :
    content.schema shown = content.schema shown' := by
  cases content with
  | fixed schema named => rfl
  | through name type remarks => rw [schema, schema, h name rfl]

/-- The contents of properties under their keys, where a later property replaces an earlier one. -/
def Property.contents (properties : List Property) : List (String × Content) :=
  Json.insertAll (properties.map fun property => (property.key, property.content))

/-- What a property exposes when declared names are shown as given. -/
def Property.exposure (shown : QualifiedName → Schema) (property : Property) : Exposure :=
  ⟨property.key, property.required, property.content.schema shown⟩

/-- The object of properties in terms of their contents. -/
theorem Property.foldl_addTo (shown : QualifiedName → Schema) (properties : List Property) :
    properties.foldl (addTo shown) (Schema.ofKind .object) =
      { Schema.ofKind .object with
        required := (properties.filter Property.required).map Property.key
        properties := (contents properties).map (Prod.map id (Content.schema shown)) } := by
  have hexposures : properties.foldl (addTo shown) (Schema.ofKind .object) =
      (properties.map (exposure shown)).foldl Exposure.addTo (Schema.ofKind .object) := by
    rw [List.foldl_map]
    rfl
  have hrequired : Exposure.requiredKeys (properties.map (exposure shown)) =
      (properties.filter Property.required).map Property.key := by
    rw [Exposure.requiredKeys, List.filter_map, List.map_map]
    rfl
  have hproperties : Exposure.properties (properties.map (exposure shown)) =
      (contents properties).map (Prod.map id (Content.schema shown)) := by
    rw [contents, Json.map_insertAll, List.map_map, Exposure.properties, List.map_map]
    rfl
  rw [hexposures, Exposure.foldl_addTo, hrequired, hproperties]

namespace Table

variable {table : Table} {aliases : List QualifiedName} {name next expanded component : QualifiedName}

/-- The declared names that a declaration shows, those of properties that are replaced left out. -/
def exposed (table : Table) (declaration : Declaration) : List QualifiedName :=
  match declaration.shape with
  | .struct fields =>
    (Property.contents (fields.filterMap (table.property? declaration))).filterMap fun member =>
      member.2.shownName?
  | .typeAlias target =>
    (table.leaf declaration.name.module (TypeExpr.classify declaration.generics target)).shownName?.toList
  | _ => []

/-- A component shows a name that passes an alias. -/
def Shows (table : Table) (name expanded : QualifiedName) : Prop :=
  ∃ declaration, table.get? name = some declaration ∧
    ∃ start ∈ table.exposed declaration, table.Passes start expanded

/-- A declaration depends on how the names that it shows are shown. -/
theorem sketch_congr {shown shown' : QualifiedName → Schema} {declaration : Declaration}
    (h : ∀ name ∈ table.exposed declaration, shown name = shown' name) :
    table.sketch shown declaration = table.sketch shown' declaration := by
  unfold exposed at h
  unfold sketch
  split
  · next fields hshape =>
    simp only [hshape, List.mem_filterMap] at h
    rw [Property.foldl_addTo, Property.foldl_addTo]
    have hcontents : (Property.contents (fields.filterMap (table.property? declaration))).map
          (Prod.map id (Content.schema shown)) =
        (Property.contents (fields.filterMap (table.property? declaration))).map
          (Prod.map id (Content.schema shown')) := by
      refine List.map_congr_left fun member hmember => ?_
      have hcontent : member.2.schema shown = member.2.schema shown' :=
        Content.schema_congr fun name hname => h name ⟨member, hmember, hname⟩
      exact congrArg (Prod.mk member.1) hcontent
    rw [hcontents]
  · rfl
  · next target hshape =>
    simp only [hshape, Option.mem_toList] at h
    dsimp only
    rw [Leaf.schema?_congr h]
  · rfl

/-- What a declaration refers to through a name that it shows can be read off its schema. -/
theorem refers_iff_of_sketch {shown shown' : QualifiedName → Schema} {declaration : Declaration}
    {remarks : Comment.Container}
    (h : (table.sketch shown declaration).withContainer remarks =
      (table.sketch shown' declaration).withContainer remarks)
    (hname : name ∈ table.exposed declaration) (ref : String) :
    (shown name).Refers ref ↔ (shown' name).Refers ref := by
  unfold exposed at hname
  split at hname
  · next fields hshape =>
    obtain ⟨member, hmember, hshown⟩ := List.mem_filterMap.mp hname
    have hproperties := congrArg Schema.properties h
    simp only [Schema.withContainer, sketch, hshape, Property.foldl_addTo] at hproperties
    have hsame := congrArg Prod.snd (List.map_inj_left.mp hproperties member hmember)
    dsimp only [Prod.map] at hsame
    rw [← Content.schema_refers hshown shown, hsame, Content.schema_refers hshown shown']
  · next target hshape =>
    have hleaf : table.leaf declaration.name.module (TypeExpr.classify declaration.generics target) =
        .declared name := by
      cases hleaf : table.leaf declaration.name.module (TypeExpr.classify declaration.generics target) with
      | missing | plain => simp [hleaf, Leaf.shownName?] at hname
      | declared other => simp_all [Leaf.shownName?]
    have hsketch (shown : QualifiedName → Schema) :
        ((table.sketch shown declaration).withContainer remarks).Refers ref ↔ (shown name).Refers ref := by
      simp [sketch, hshape, hleaf, Leaf.schema?]
    rw [← hsketch shown, h, hsketch shown']
  · exact absurd hname List.not_mem_nil

/-- Aliases that lead to components make no difference to a component exactly if it does not show them. -/
theorem schemaOf_eq_iff (haliases : ∀ expanded ∈ aliases, table.Leads expanded) (name : QualifiedName) :
    table.schemaOf aliases name = table.schemaOf [] name ↔
      ∀ expanded ∈ aliases, ¬ table.Shows name expanded := by
  constructor
  · rintro hschema expanded hexpanded ⟨declaration, hget, start, hstart, hpasses⟩
    obtain ⟨component, hcomponent, hleads⟩ := haliases expanded hexpanded
    obtain ⟨next, hnext, -⟩ := Relation.TransGen.head'_iff.mp hleads
    simp only [schemaOf, hget, Option.map_some, Option.getD_some] at hschema
    have hrefers := (refers_iff_of_sketch hschema hstart _).mpr
      (Passes.refers (hpasses.trans hleads.to_reflTransGen) hcomponent fun _ h => absurd h List.not_mem_nil)
    exact hpasses.not_refers hnext hexpanded _ hrefers
  · intro hshows
    unfold schemaOf
    cases hget : table.get? name with
    | none => rfl
    | some declaration =>
      have hshown (start : QualifiedName) (hstart : start ∈ table.exposed declaration) :
          table.shown aliases start = table.shown [] start := by
        refine shown_congr (List.nil_subset _) fun expanded hexpanded => .inr fun hpasses => ?_
        exact hshows expanded hexpanded ⟨declaration, hget, start, hstart, hpasses⟩
      rw [Option.map_some, Option.map_some, sketch_congr hshown]

/-- If all aliases being expanded lead to components when a component is asked for, then also when it asks for
others. -/
theorem leads_of_mem_requests {request inner : Request}
    (h : ∀ expanded ∈ request.aliases, table.Leads expanded) (hinner : inner ∈ table.requests request) :
    ∀ expanded ∈ inner.aliases, table.Leads expanded := by
  have hrender {name : QualifiedName} (hinner : inner ∈ (table.render request.aliases name).requests) :
      ∀ expanded ∈ inner.aliases, table.Leads expanded := by
    intro expanded hexpanded
    obtain ⟨hcomponent, -, haliases⟩ := mem_render_requests hinner
    exact (haliases expanded hexpanded).elim (h expanded) fun hleads => ⟨inner.name, hcomponent, hleads⟩
  unfold requests at hinner
  cases hget : table.get? request.name with
  | none => simp [hget] at hinner
  | some declaration =>
    simp only [hget, Option.map_some, Option.getD_some, requestsOfDeclaration] at hinner
    split at hinner
    · next fields _ =>
      obtain ⟨property, -, hproperty⟩ := List.mem_flatMap.mp hinner
      cases hcontent : property.content with
      | fixed schema named =>
        simp only [hcontent, requestsOfContent, Request.each, List.mem_map] at hproperty
        obtain ⟨name, -, rfl⟩ := hproperty
        exact h
      | through name type remarks =>
        rw [hcontent] at hproperty
        exact hrender hproperty
    · next target _ =>
      cases hleaf : table.leaf declaration.name.module (TypeExpr.classify declaration.generics target) with
      | missing | plain => simp [hleaf, requestsOfLeaf, Leaf.shownName?] at hinner
      | declared name =>
        rw [hleaf] at hinner
        exact hrender hinner
    · exact absurd hinner List.not_mem_nil

end Table

end ApiScribe
