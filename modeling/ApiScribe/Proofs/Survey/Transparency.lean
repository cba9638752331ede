import ApiScribe.Proofs.Survey.Order
import ApiScribe.Proofs.Synthesis.Fields

/-!
# Aliases in fields

An alias that is not opted in stands for its target. A field whose type is such an alias shows what the field
would show if its type were the target, looked up in the module of the alias. There is one exception: where the
target has no schema, the field would be left out, but the alias is shown as a free-form schema and the field is
kept.
-/

namespace ApiScribe

/-- Whether a type is a name or a path, without anything around it. -/
def TypeExpr.isPath : TypeExpr → Bool
  | .named _ | .selector _ _ => true
  | _ => false

/-- A path encloses nothing. -/
theorem TypeExpr.enclose_of_isPath {type : TypeExpr} (h : type.isPath = true) (core : Schema) :
    type.enclose core = core := by
  cases type <;> first | rfl | cases h

namespace Table

variable {table : Table} {aliases : List QualifiedName} {name : QualifiedName} {target : TypeExpr}

/-- While an alias is being expanded, its target is shown as ever, unless it passes the alias again. -/
theorem leaf_schema?_cons (halias : table.aliasOf? name = some target)
    (hacyclic : ¬ Relation.TransGen table.Next name name) :
    (table.leaf name.module target).schema? (table.shown (name :: aliases)) =
      (table.leaf name.module target).schema? (table.shown aliases) := by
  apply Leaf.schema?_congr
  intro next hnext
  have hleaf : table.leaf name.module target = .declared next := by
    cases hleaf : table.leaf name.module target with
    | missing | plain => simp [hleaf, Leaf.shownName?] at hnext
    | declared other => simp_all [Leaf.shownName?]
  apply shown_congr (List.subset_cons_self name aliases)
  intro expanded hexpanded
  rcases List.mem_cons.mp hexpanded with rfl | hexpanded
  · exact .inr fun hpasses => hacyclic (Relation.TransGen.head' ⟨target, halias, hleaf⟩ hpasses)
  · exact .inl hexpanded

/-- An alias is shown as its target, or as a free-form schema if that has none. -/
theorem shown_alias (halias : table.aliasOf? name = some target)
    (hacyclic : ¬ Relation.TransGen table.Next name name) (hfree : name ∉ aliases) :
    table.shown aliases name =
      (((table.leaf name.module target).schema? (table.shown aliases)).map target.enclose).getD {} := by
  rw [shown, render_expand halias hfree, leaf_schema?_cons halias hacyclic]

/-- A field of the declaration has an alias as its type that is not opted in and does not lead back to itself. -/
structure Abbreviates (table : Table) (declaration : Declaration) (field : FieldDeclaration) (ident : String)
    (name : QualifiedName) (target : TypeExpr) : Prop where
  ident : field.ident = some ident
  skip : field.options.skip = false
  flatten : field.options.flatten = false
  path : (TypeExpr.classify declaration.generics field.type).isPath = true
  leaf : table.leaf declaration.name.module (TypeExpr.classify declaration.generics field.type) = .declared name
  target : table.aliasOf? name = some target
  acyclic : ¬ Relation.TransGen table.Next name name

variable {declaration : Declaration} {field : FieldDeclaration} {ident : String}

/-- A field of an alias shows what it would show with the target as its type, or a free-form schema. -/
theorem Abbreviates.content_schema (h : table.Abbreviates declaration field ident name target)
    (hfree : name ∉ aliases) (remarks : Comment.Field) :
    (table.content? declaration.name.module (TypeExpr.classify declaration.generics field.type) remarks).map
        (Content.schema (table.shown aliases)) =
      some (((table.contentIn? name.module declaration.name.module target remarks).map
        (Content.schema (table.shown aliases))).getD (Schema.withDetails {} remarks)) := by
  unfold content? contentIn?
  dsimp only
  split
  · rw [Leaf.content?_schema, Leaf.content?_schema, h.leaf, Leaf.schema?, shown_alias h.target h.acyclic hfree]
    cases (table.leaf name.module target).schema? (table.shown aliases) with
    | none => simp [TypeExpr.enclose_of_isPath h.path]
    | some core => simp [TypeExpr.enclose_of_isPath h.path]
  · rfl

end Table

/-- The rules without any depth do what the table says. -/
theorem Recursion.unbounded_exact (table : Table) : Recursion.unbounded.Exact table where
  component aliases name first value last hfirst hrun := by
    obtain ⟨result, after, hends, -⟩ := first.rules_complete.component name first first.fits_declarable trivial
    have hsame : (Registry.synthesize name).run first = (result, after) := Registry.perform_run_of_some hends
    rw [hsame.symm.trans (Option.some.inj hrun)] at hends
    exact (Registry.rules_exact table first).component aliases name first value last hfirst hends
  inline aliases name subject hname first value last hfirst hrun := by
    obtain ⟨result, after, hends, -⟩ :=
      first.rules_complete.inline name subject first first.fits_declarable trivial
    have hsame : (Registry.perform {} fun rules => rules.inline name subject).run first = (result, after) :=
      Registry.perform_run_of_some hends
    rw [hsame.symm.trans (Option.some.inj hrun)] at hends
    exact (Registry.rules_exact table first).inline aliases name subject hname first value last hfirst hends

namespace Synthesis

open Registry

variable {table : Table} {aliases : List QualifiedName} {name : QualifiedName} {target : TypeExpr}
  {declaration : Declaration} {field : FieldDeclaration} {ident : String} {first : Registry} {object : Schema}

/-- Wherever a run over the table stands, a field is given what the table says. -/
theorem fieldSchemaIn_run (hfirst : first.Stands table aliases) (home : ModulePath) (type : TypeExpr)
    (remarks : Comment.Field) (scope : ModulePath) (subject : String) :
    ∃ last, (fieldSchemaIn .unbounded home type remarks scope subject).run first =
      some ((table.contentIn? home scope type remarks).map (Content.schema (table.shown aliases)), last) := by
  obtain ⟨value, last, hrun, -⟩ := fieldSchemaIn_completes (Recursion.unbounded_complete _ _) home type remarks
    scope subject first first.fits_declarable trivial
  obtain ⟨-, -, hvalue⟩ := fieldSchemaIn_performs (Recursion.unbounded_exact table) home type remarks scope subject
    first value last hfirst hrun
  subst hvalue
  exact ⟨last, hrun⟩

/-- Wherever a run over the table stands, a field adds the property that the table gives it. -/
theorem addField_run (hfirst : first.Stands table aliases) (hobject : first.Covers object)
    (declaration : Declaration) (field : FieldDeclaration) (position : Nat) :
    ∃ last, (addField .unbounded declaration object field position).run first =
      some (((table.property? declaration field).map (Property.addTo (table.shown aliases) object)).getD object,
        last) := by
  obtain ⟨value, last, hrun, -⟩ := addField_completes (Recursion.unbounded_complete _ _) declaration object field
    position first first.fits_declarable hobject
  obtain ⟨-, -, hvalue⟩ := addField_performs (Recursion.unbounded_exact table) declaration object field position
    first value last hfirst hrun
  subst hvalue
  exact ⟨last, hrun⟩

/-- Aliases are transparent up to targets without a schema. Let a run over a table stand where an alias is not
being expanded. A field of the alias is given the schema that it would be given with the target of the alias as
its type, looked up in the module of the alias, exactly if there is such a schema. If there is none, the field is
not left out: its property is a free-form schema, and it is as required as ever. -/
theorem addField_alias (hfirst : first.Stands table aliases) (hobject : first.Covers object)
    (h : table.Abbreviates declaration field ident name target) (hfree : name ∉ aliases) (position : Nat) :
    let type := TypeExpr.classify declaration.generics field.type
    let remarks := declaration.fieldRemarks field ident
    let scope := declaration.name.module
    let subject := declaration.fieldSubject field position
    ∃ direct given object' after after' last,
      (fieldSchemaIn .unbounded name.module target remarks scope subject).run first = some (direct, after) ∧
      (fieldSchema .unbounded type remarks scope subject).run first = some (given, after') ∧
      (addField .unbounded declaration object field position).run first = some (object', last) ∧
      (given = direct ↔ direct.isSome = true) ∧
      object' = Exposure.addTo object
        ⟨exposedName declaration.options field remarks ident, isRequired declaration.options field,
          direct.getD (Schema.withDetails {} remarks)⟩ := by
  intro type remarks scope subject
  obtain ⟨after, hdirect⟩ := fieldSchemaIn_run hfirst name.module target remarks scope subject
  obtain ⟨after', hgiven⟩ := fieldSchemaIn_run hfirst scope type remarks scope subject
  obtain ⟨last, hadded⟩ := addField_run hfirst hobject declaration field position
  have hschema := h.content_schema hfree remarks
  refine ⟨_, _, _, after, after', last, hdirect, hgiven, hadded, ?_, ?_⟩
  · rw [← Table.content?, hschema]
    cases (table.contentIn? name.module scope target remarks).map (Content.schema (table.shown aliases)) with
    | none => simp
    | some schema => simp
  · obtain ⟨content, hcontent, hvalue⟩ := Option.map_eq_some_iff.mp hschema
    have hproperty : table.property? declaration field =
        some ⟨exposedName declaration.options field remarks ident, isRequired declaration.options field,
          content⟩ := by
      simp only [Table.property?, h.ident, h.skip, h.flatten, Option.bind_some, Bool.or_self, Bool.false_eq_true,
        if_false]
      exact congrArg (Option.map _) hcontent
    rw [hproperty, ← hvalue]
    rfl

/-- The field `pets: Pets` of the owner, where `Pets` is an alias of `Vec<Pet>`. -/
def petsField : FieldDeclaration := ⟨some "pets", .path false [] "Pets" [], [], {}⟩

/-- The declaration of the owner. -/
def petsOwner : Declaration :=
  ⟨⟨.root, "Owner"⟩, .struct [petsField], ["openapi:schema"], [], {}, "src/lib.rs"⟩

/-- The pets of an owner are an array of pets, although pets show the alias themselves. -/
theorem addField_alias_pets :
    (fresh petsTable).Stands petsTable [] ∧ (fresh petsTable).Covers (Schema.ofKind .object) ∧
    petsTable.Abbreviates petsOwner petsField "pets" ⟨.root, "Pets"⟩ (.array (.named "Pet")) ∧
    ∃ last, (addField .unbounded petsOwner (Schema.ofKind .object) petsField 0).run (fresh petsTable) =
      some (Exposure.addTo (Schema.ofKind .object) ⟨"pets", true, Schema.arrayOf (Schema.referenceTo "Pet")⟩,
        last) := by
  have hstands : (fresh petsTable).Stands petsTable [] := stands_fresh (.refl petsTable)
  have hcovers : (fresh petsTable).Covers (Schema.ofKind .object) :=
    Schema.resolvesIn_of_not_refers _ (Schema.not_refers_ofKind .object)
  have habbreviates : petsTable.Abbreviates petsOwner petsField "pets" ⟨.root, "Pets"⟩ (.array (.named "Pet")) :=
    { ident := rfl, skip := rfl, flatten := rfl, path := rfl, leaf := rfl, target := rfl
      acyclic := fun hcycle =>
        Table.Passes.not_isComponent (.single ⟨.array (.named "Pet"), rfl, rfl⟩) hcycle rfl }
  refine ⟨hstands, hcovers, habbreviates, ?_⟩
  obtain ⟨direct, given, object, after, after', last, hdirect, -, hadded, -, rfl⟩ :=
    addField_alias hstands hcovers habbreviates List.not_mem_nil 0
  have hvalue : ((fieldSchemaIn .unbounded .root (.array (.named "Pet")) {} .root "crate::Owner.pets").run
      (fresh petsTable)).map Prod.fst = some (some (Schema.arrayOf (Schema.referenceTo "Pet"))) := rfl
  have hsame : direct = some (Schema.arrayOf (Schema.referenceTo "Pet")) :=
    Option.some.inj ((congrArg (Option.map Prod.fst) hdirect).symm.trans hvalue)
  subst hsame
  exact ⟨last, hadded⟩

/-- The declarations of `struct Pet { tag: Tag }`, which is opted in, and `type Tag = Missing`. -/
def danglingTable : Table where
  declarations :=
    [(⟨.root, "Pet"⟩, petOf [⟨some "tag", .path false [] "Tag" [], [], {}⟩]),
    (⟨.root, "Tag"⟩,
      { name := ⟨.root, "Tag"⟩
        shape := .typeAlias (.path false [] "Missing" [])
        docs := [], generics := [], options := {}, source := "src/lib.rs" })]
  scopes := [(.root, [])]

/-- A target that is missing has no schema, but a field of its alias is kept and required. -/
theorem alias_keeps_missing_target :
    ((fieldSchemaIn .unbounded .root (.named "Missing") {} .root "crate::Pet.tag").run
      (fresh danglingTable)).map Prod.fst = some none ∧
    ((fresh danglingTable).after [.synthesize ⟨.root, "Pet"⟩]).nodeFor? ⟨.root, "Pet"⟩ =
      some ⟨⟨.root, "Pet"⟩, "Pet",
        { Schema.ofKind .object with required := ["tag"], properties := [("tag", {})] }⟩ :=
  ⟨rfl, rfl⟩

end Synthesis

end ApiScribe
