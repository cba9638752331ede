import ApiScribe.Proofs.Synthesis.Depth

/-!
# Findings are a log

No rule looks at what has been reported: findings are only added at the end. Findings put in front of all
others therefore ride through every action, which gives the same value and does the same to everything else.
Two consequences are used elsewhere. What has been reported stays reported, and registries that differ in
their findings only are treated alike.
-/

namespace ApiScribe

section Commutes

variable {σ α β : Type} {change : σ → σ}

/-- From a changed state the action gives the same value, and the state it leaves is changed alike. -/
def Commutes (change : σ → σ) (action : StateM σ α) : Prop :=
  ∀ state, action.run (change state) = Prod.map id change (action.run state)

/-- An action that does nothing commutes. -/
theorem commutes_pure (value : α) : Commutes change (pure value : StateM σ α) := fun _ => rfl

/-- A step that commutes with the change is an action that does. -/
theorem commutes_modify {step : σ → σ} (h : ∀ state, step (change state) = change (step state)) :
    Commutes change (modify step : StateM σ Unit) := by
  intro state
  change ((), step (change state)) = ((), change (step state))
  rw [h]

/-- Actions that commute do so one after another. -/
theorem commutes_bind {action : StateM σ α} {next : α → StateM σ β} (h : Commutes change action)
    (hnext : ∀ value, Commutes change (next value)) : Commutes change (action >>= next) := by
  intro state
  change (next (action.run (change state)).1).run (action.run (change state)).2 = _
  rw [h state]
  apply hnext

/-- An action that starts by reading the state, but not what the change affects. -/
theorem commutes_get_bind {next : σ → StateM σ α} (hsame : ∀ state, next (change state) = next state)
    (hnext : ∀ state, Commutes change (next state)) : Commutes change (get >>= next) := by
  intro state
  change (next (change state)).run (change state) = _
  rw [hsame]
  apply hnext

end Commutes

variable {α β : Type} {front : List Finding}

namespace Resolver

/-- The resolver with findings in front of its own. -/
def logged (front : List Finding) (resolver : Resolver) : Resolver :=
  { resolver with findings := front ++ resolver.findings }

/-- Loading a module does not look at findings. -/
theorem ensureModule_logged (front : List Finding) (resolver : Resolver) (module : ModulePath) :
    (resolver.logged front).ensureModule module = (resolver.ensureModule module).logged front := by
  by_cases hknown : resolver.table.hasModule module = true ∨ module ∈ resolver.requested
  · simp [ensureModule, logged, hknown]
  · cases hfile : resolver.loader.find? module with
    | none => simp [ensureModule, logged, hknown, hfile]
    | some supplied => cases supplied <;> simp [ensureModule, logged, supply, hknown, hfile]

/-- Asking for a declaration does not depend on what has been reported. -/
theorem declared_commutes (name : QualifiedName) : Commutes (logged front) (declared name) := by
  have hanswer : Commutes (logged front) (do
      return if (← get).table.contains name then some name else none) :=
    commutes_get_bind (fun _ => rfl) fun _ => commutes_pure _
  unfold declared
  apply commutes_get_bind
  · exact fun _ => rfl
  · intro resolver
    dsimp only
    split
    · exact commutes_bind (commutes_modify fun state => ensureModule_logged front state _) fun _ => hanswer
    · exact hanswer

/-- Going through imports does not depend on what has been reported. -/
theorem firstDeclared_commutes (scope : ModulePath) (designates : Import → Option (List String × String))
    (imports : List Import) : Commutes (logged front) (firstDeclared scope designates imports) := by
  induction imports with
  | nil => exact commutes_pure none
  | cons binding rest ih =>
    unfold firstDeclared
    split
    · exact ih
    · apply commutes_get_bind
      · exact fun _ => rfl
      · intro resolver
        split
        · exact ih
        · apply commutes_bind (declared_commutes _)
          intro found
          cases found with
          | some found => exact commutes_pure _
          | none => exact ih

/-- Looking up a bare name does not depend on what has been reported. -/
theorem lookupBare_commutes (name : String) (scope : ModulePath) :
    Commutes (logged front) (lookupBare name scope) := by
  unfold lookupBare
  apply commutes_get_bind
  · exact fun _ => rfl
  · intro resolver
    dsimp only
    split
    · exact commutes_pure _
    · apply commutes_bind (firstDeclared_commutes scope _ _)
      intro found
      cases found with
      | some found => exact commutes_pure _
      | none => exact firstDeclared_commutes scope _ _

/-- Looking up a path does not depend on what has been reported. -/
theorem lookup_commutes (segments : List String) (scope : ModulePath) :
    Commutes (logged front) (lookup segments scope) := by
  unfold lookup
  split
  · exact commutes_pure none
  · exact lookupBare_commutes _ scope
  · apply commutes_get_bind
    · exact fun _ => rfl
    · intro resolver
      split
      · exact commutes_pure none
      · exact declared_commutes _

end Resolver

namespace Registry

/-- The registry with findings in front of its own. -/
def logged (front : List Finding) (registry : Registry) : Registry :=
  { registry with resolver := registry.resolver.logged front }

/-- Findings are added at the end. -/
theorem addFindings_logged (front findings : List Finding) (registry : Registry) :
    (registry.logged front).addFindings findings = (registry.addFindings findings).logged front := by
  simp [logged, Resolver.logged, addFindings]

/-- A report does not depend on what has been reported. -/
theorem report_commutes (subject : String) (cause : Cause) :
    Commutes (logged front) (report subject cause) :=
  commutes_modify fun registry => addFindings_logged front _ registry

/-- What the resolver does is done to the registry. -/
theorem resolving_commutes {action : Resolving α} (h : Commutes (Resolver.logged front) action) :
    Commutes (logged front) (resolving action) := by
  intro registry
  change ((action.run (registry.resolver.logged front)).1,
    { registry with resolver := (action.run (registry.resolver.logged front)).2 }) = _
  rw [h registry.resolver]
  rfl

/-- Reading a comment does not depend on what has been reported. -/
theorem container_commutes (name : QualifiedName) : Commutes (logged front) (container name) := by
  intro registry
  cases h : registry.comment? name with
  | some comment =>
    have h' : (registry.logged front).comment? name = some comment := h
    rw [container_run_known h, container_run_known h']
    rfl
  | none =>
    have hentry := Option.map_eq_none_iff.mp h
    have hentry' : ((registry.logged front).containers.find? fun entry => entry.1 = name) = none := hentry
    simp only [container, StateT.run_bind, StateT.run_get, pure_bind, hentry, hentry', addFindings_logged]
    rfl

/-- Asking whether a declaration is opted in does not depend on what has been reported. -/
theorem isSchema_commutes (name : QualifiedName) : Commutes (logged front) (isSchema name) := by
  unfold isSchema
  apply commutes_get_bind
  · exact fun _ => rfl
  · intro registry
    split
    · exact commutes_bind (container_commutes name) fun _ => commutes_pure _
    · exact commutes_pure false

/-- Naming a component does not depend on what has been reported. -/
theorem componentName_commutes (name : QualifiedName) : Commutes (logged front) (componentName name) := by
  unfold componentName
  apply commutes_get_bind
  · exact fun _ => rfl
  · intro registry
    split
    · exact commutes_pure _
    · apply commutes_bind (container_commutes name)
      intro comment state
      let given := state.names.assign name (comment.name.getD name.name)
      change (given.1, { (state.logged front).addFindings given.2.2 with names := given.2.1 }) = _
      rw [addFindings_logged]
      rfl

end Registry

open Registry

/-- Findings put in front ride through the action. -/
def Logs (action : Build α) : Prop :=
  ∀ front registry, action.run (registry.logged front) =
    (action.run registry).map (Prod.map id (Registry.logged front))

namespace Logs

variable {action : Build α}

/-- An action that does nothing treats findings as a log. -/
theorem pure (value : α) : Logs (pure value : Build α) := fun _ _ => rfl

/-- Actions that treat findings as a log do so one after another. -/
theorem bind {next : α → Build β} (h : Logs action) (hnext : ∀ value, Logs (next value)) :
    Logs (action >>= next) := by
  intro front registry
  rw [StateT.run_bind, StateT.run_bind, h]
  cases action.run registry with
  | none => rfl
  | some result => exact hnext result.1 front result.2

/-- An action that cannot fail. -/
theorem lift {action : StateM Registry α} (h : ∀ front, Commutes (Registry.logged front) action) :
    Logs (liftM action : Build α) := by
  intro front registry
  change some (action.run (registry.logged front)) =
    some (Prod.map id (Registry.logged front) (action.run registry))
  rw [h]

/-- An action that starts by reading the registry, but not its findings. -/
theorem get_bind {next : Registry → Build α}
    (hsame : ∀ front registry, next (registry.logged front) = next registry)
    (hnext : ∀ registry, Logs (next registry)) : Logs (get >>= next) := by
  intro front registry
  change (next (registry.logged front)).run (registry.logged front) = _
  rw [hsame]
  apply hnext

/-- A change of the registry that does not look at the findings. -/
theorem modify {step : Registry → Registry}
    (h : ∀ front registry, step (registry.logged front) = (step registry).logged front) :
    Logs (modify step : Build Unit) := by
  intro front registry
  change some ((), step (registry.logged front)) = some ((), (step registry).logged front)
  rw [h]

/-- A report in front of an action. -/
theorem reporting (h : Logs action) (subject : String) (cause : Cause) :
    Logs (liftM (report subject cause) >>= fun _ => action) :=
  bind (lift fun _ => report_commutes subject cause) fun _ => h

/-- A report that is made under a condition. -/
theorem reportingIf (h : Logs action) (condition : Bool) (subject : String) (cause : Cause) :
    Logs (if condition then do liftM (report subject cause); action else action) := by
  split
  · exact h.reporting subject cause
  · exact h

end Logs

/-- Rules that treat findings as a log. -/
structure Recursion.Logs (rules : Recursion) : Prop where
  component : ∀ name, ApiScribe.Logs (rules.component name)
  inline : ∀ name subject, ApiScribe.Logs (rules.inline name subject)

namespace Synthesis

variable {rules : Recursion}

/-- Looking up a path does not depend on what has been reported. -/
theorem lookup_commutes (segments : List String) (scope : ModulePath) :
    Commutes (Registry.logged front) (lookup segments scope) := by
  unfold lookup
  apply commutes_bind (resolving_commutes (Resolver.lookup_commutes segments scope))
  intro found
  split
  · exact commutes_pure _
  · split
    · exact commutes_get_bind (fun _ => rfl) fun _ => commutes_pure _
    · exact commutes_pure none

/-- Looking up a library name does not depend on what has been reported. -/
theorem undeclaredWellKnown_commutes (name : String) (scope : ModulePath) :
    Commutes (Registry.logged front) (undeclaredWellKnown name scope) := by
  unfold undeclaredWellKnown
  split
  · exact commutes_pure none
  · apply commutes_bind (resolving_commutes (Resolver.lookup_commutes [name] scope))
    intro found
    cases found <;> exact commutes_pure _

/-- Referring to a component does not depend on what has been reported. -/
theorem referenceTo_commutes (id : Nat) : Commutes (Registry.logged front) (referenceTo id) :=
  commutes_get_bind (fun _ => rfl) fun _ => commutes_pure _

/-- The values of an enum do not depend on what has been reported. -/
theorem enumValues_commutes (declaration : Declaration) (variants : List VariantDeclaration) :
    Commutes (Registry.logged front) (enumValues declaration variants) := by
  induction variants with
  | nil => exact commutes_pure []
  | cons variant rest ih =>
    unfold enumValues
    split
    · exact ih
    · split
      · exact commutes_bind (report_commutes _ _) fun _ => ih
      · exact commutes_bind ih fun _ => commutes_pure _

/-- Taking a place does not depend on what has been reported. -/
theorem reserve_commutes (name : QualifiedName) : Commutes (Registry.logged front) (reserve name) := by
  intro registry
  have hname : (componentName name).run (registry.logged front) =
      Prod.map id (Registry.logged front) ((componentName name).run registry) :=
    componentName_commutes name registry
  simp only [reserve, StateT.run_bind, hname]
  rfl

/-- The schema of a path is found with findings as a log. -/
theorem resolvePath_logs (h : rules.Logs) (segments : List String) (scope : ModulePath) (subject : String) :
    Logs (resolvePath rules segments scope subject) := by
  unfold resolvePath
  apply (Logs.lift fun _ => lookup_commutes segments scope).bind
  intro found
  cases found with
  | none => exact .reporting (.pure none) _ _
  | some name =>
    apply (h.component name).bind
    intro result
    cases result with
    | some id => exact (Logs.lift fun _ => referenceTo_commutes id).bind fun _ => .pure _
    | none => exact (h.inline name subject).bind fun _ => .pure _

/-- The schema of a type is found with findings as a log. -/
theorem resolve_logs (h : rules.Logs) (scope : ModulePath) (subject : String) (type : TypeExpr) :
    Logs (resolve rules scope subject type) := by
  induction type with
  | primitive | any => exact .pure _
  | pointer inner ih => exact ih
  | array inner ih => exact ih.bind fun _ => .pure _
  | map key value _ ih =>
    have hvalue : Logs (do return (← resolve rules scope subject value).map Schema.mapOf) :=
      ih.bind fun _ => .pure _
    exact hvalue.reportingIf _ _ _
  | named name =>
    apply (Logs.lift fun _ => undeclaredWellKnown_commutes name scope).bind
    intro known
    cases known with
    | some known => exact .pure _
    | none => exact resolvePath_logs h [name] scope subject
  | selector qualifier name => exact resolvePath_logs h (qualifier ++ [name]) scope subject
  | unsupported what => exact .reporting (.pure none) _ _

/-- The reference for a path in a comment is found with findings as a log. -/
theorem strictPath_logs (h : rules.Logs) (segments : List String) (scope : ModulePath) :
    Logs (strictPath rules segments scope) := by
  unfold strictPath
  apply (Logs.lift fun _ => lookup_commutes segments scope).bind
  intro found
  cases found with
  | none => exact .pure _
  | some name =>
    apply (Logs.lift fun _ => isSchema_commutes name).bind
    intro chosen
    cases chosen with
    | false => exact .pure _
    | true =>
      apply (h.component name).bind
      intro result
      cases result with
      | some id => exact (Logs.lift fun _ => referenceTo_commutes id).bind fun _ => .pure _
      | none => exact .pure _

/-- The reference for a type in a comment is found with findings as a log. -/
theorem strict_logs (h : rules.Logs) (scope : ModulePath) (type : TypeExpr) :
    Logs (strict rules scope type) := by
  induction type with
  | primitive | any | unsupported => exact .pure _
  | pointer inner ih => exact ih
  | array inner ih => exact ih.bind fun _ => .pure _
  | map key value _ ih => exact ih.bind fun _ => .pure _
  | named name =>
    apply (Logs.lift fun _ => undeclaredWellKnown_commutes name scope).bind
    intro known
    cases known with
    | some known => exact .pure _
    | none => exact strictPath_logs h [name] scope
  | selector qualifier name => exact strictPath_logs h (qualifier ++ [name]) scope

/-- The reference for a written type is found with findings as a log. -/
theorem referenceFor_logs (h : rules.Logs) (written : String) (scope : ModulePath) :
    Logs (Synthesis.referenceFor rules written scope) := by
  unfold Synthesis.referenceFor
  split
  · exact .pure _
  · exact strict_logs h scope _

/-- The members of a composition are found with findings as a log. -/
theorem members_logs (h : rules.Logs) (scope : ModulePath) (subject : String) (written : List String) :
    Logs (members rules scope subject written) := by
  induction written with
  | nil => exact .pure []
  | cons first rest ih =>
    apply (referenceFor_logs h first scope).bind
    intro result
    cases result with
    | ok schema => exact ih.bind fun _ => .pure _
    | error fault => exact ih.reporting _ _

/-- The schema of a field is found with findings as a log. -/
theorem fieldSchema_logs (h : rules.Logs) (type : TypeExpr) (remarks : Comment.Field) (scope : ModulePath)
    (subject : String) : Logs (fieldSchema rules type remarks scope subject) := by
  have htype : Logs (do
      return (← resolve rules scope subject type).map fun schema => schema.withDetails remarks) :=
    (resolve_logs h scope subject type).bind fun _ => .pure _
  apply (members_logs h scope subject remarks.oneOf).bind
  intro found
  dsimp only
  split
  · exact htype.reportingIf _ _ _
  · exact .pure _

/-- A field is added with findings as a log. -/
theorem addField_logs (h : rules.Logs) (declaration : Declaration) (schema : Schema)
    (field : FieldDeclaration) (position : Nat) :
    Logs (addField rules declaration schema field position) := by
  unfold addField
  split
  · exact .reporting (.pure schema) _ _
  · split
    · exact .pure schema
    · apply (Logs.modify fun front registry => addFindings_logged front _ registry).bind
      intro _
      split
      · exact .reporting (.pure schema) _ _
      · apply (fieldSchema_logs h _ _ _ _).bind
        intro result
        cases result with
        | none => exact .pure schema
        | some property => exact .reportingIf (.pure _) _ _ _

/-- Fields are added with findings as a log. -/
theorem addFields_logs (h : rules.Logs) (declaration : Declaration) (schema : Schema) (position : Nat)
    (fields : List FieldDeclaration) : Logs (addFields rules declaration schema position fields) := by
  induction fields generalizing schema position with
  | nil => exact .pure schema
  | cons field rest ih => exact (addField_logs h declaration schema field position).bind fun next => ih next _

/-- The schema of a declaration is found with findings as a log. -/
theorem shapeSchema_logs (h : rules.Logs) (declaration : Declaration) :
    Logs (shapeSchema rules declaration) := by
  unfold shapeSchema
  split
  · exact addFields_logs h declaration _ 0 _
  · exact (Logs.lift fun _ => enumValues_commutes declaration _).bind fun _ => .pure _
  · exact (resolve_logs h _ _ _).bind fun _ => .pure _
  · exact .pure _

/-- The rule for components treats findings as a log if the rules one level down do. -/
theorem component_logs (h : rules.Logs) (name : QualifiedName) : Logs (component rules name) := by
  unfold component
  apply Logs.get_bind (fun _ _ => rfl)
  intro registry
  split
  · exact .pure _
  · apply Logs.get_bind (fun _ _ => rfl)
    intro registry'
    split
    · exact .pure none
    · apply (Logs.lift fun _ => isSchema_commutes name).bind
      intro chosen
      split
      · exact .pure none
      · apply Logs.get_bind (fun _ _ => rfl)
        intro state
        split
        · exact .pure none
        · split
          · exact .reporting ((Logs.modify fun _ _ => rfl).bind fun _ => .pure none) _ _
          · apply (Logs.lift fun _ => reserve_commutes name).bind
            intro id
            apply (shapeSchema_logs h _).bind
            intro schema
            apply (Logs.lift fun _ => container_commutes name).bind
            intro comment
            have hfinish : Logs (liftM (finish name id (schema.withContainer comment))) :=
              Logs.lift fun _ => commutes_modify fun _ => rfl
            exact hfinish.bind fun _ => .pure _

/-- The rule for other declarations treats findings as a log if the rules one level down do. -/
theorem inline_logs (h : rules.Logs) (name : QualifiedName) (subject : String) :
    Logs (inline rules name subject) := by
  unfold inline
  apply Logs.get_bind (fun _ _ => rfl)
  intro registry
  split
  · exact .pure _
  · split
    · exact .pure _
    · exact .pure _
    · exact .pure _
    · apply Logs.get_bind (fun _ _ => rfl)
      intro registry'
      split
      · exact .pure _
      · apply (Logs.modify fun _ _ => rfl).bind
        intro _
        apply (resolve_logs h _ _ _).bind
        intro schema
        exact (Logs.modify fun _ _ => rfl).bind fun _ => .pure _

end Synthesis

/-- The rules of every depth treat findings as a log. -/
theorem Recursion.ofDepth_logs (depth : Nat) : (Recursion.ofDepth depth).Logs := by
  induction depth with
  | zero => exact ⟨fun _ _ _ => rfl, fun _ _ _ _ => rfl⟩
  | succ depth ih =>
    exact ⟨fun name => Synthesis.component_logs ih name, fun name subject => Synthesis.inline_logs ih name subject⟩

namespace Registry

/-- The depth of the rules does not depend on what has been reported. -/
theorem rules_logged (front : List Finding) (registry : Registry) :
    (registry.logged front).rules = registry.rules := by
  have hbound : (registry.logged front).nameBound = registry.nameBound := rfl
  rw [rules, hbound, rules]

/-- An action whose depth is exhausted changes nothing. -/
theorem perform_run_of_none {fallback : α} {action : Recursion → Build α} {registry : Registry}
    (h : (action registry.rules).run registry = none) :
    (perform fallback action).run registry = (fallback, registry) := by
  unfold perform
  rw [StateT.run_bind, StateT.run_get, pure_bind, h]
  rfl

/-- Performing an action treats findings as a log if the action does. -/
theorem perform_commutes {fallback : α} {action : Recursion → Build α}
    (h : ∀ rules, rules.Logs → Logs (action rules)) (front : List Finding) :
    Commutes (logged front) (perform fallback action) := by
  intro registry
  have hlogs : (action (registry.logged front).rules).run (registry.logged front) =
      ((action registry.rules).run registry).map (Prod.map id (logged front)) := by
    rw [rules_logged]
    exact h registry.rules (Recursion.ofDepth_logs _) front registry
  cases hrun : (action registry.rules).run registry with
  | none =>
    rw [hrun] at hlogs
    rw [perform_run_of_none hrun, perform_run_of_none hlogs]
    rfl
  | some result =>
    rw [hrun] at hlogs
    rw [perform_run_of_some hrun, perform_run_of_some hlogs]
    rfl

end Registry

/-- The rules without any depth treat findings as a log. -/
theorem Recursion.unbounded_logs : Recursion.unbounded.Logs where
  component name := .lift (perform_commutes fun _ hrules => hrules.component name)
  inline name subject := .lift (perform_commutes fun _ hrules => hrules.inline name subject)

namespace Logs

variable {action : Build α} {first last : Registry} {value : α}

/-- A registry is the one without findings with its findings in front. -/
theorem logged_withFindings (registry : Registry) :
    (registry.withFindings []).logged registry.findings = registry := by
  simp [Registry.logged, Resolver.logged, Registry.withFindings, Registry.findings]

/-- Every run is one from a registry without findings, with the old findings put in front. -/
theorem run_quiet (h : Logs action) (hrun : action.run first = some (value, last)) :
    ∃ quiet, action.run (first.withFindings []) = some (value, quiet) ∧ last = quiet.logged first.findings := by
  have hlogs := h first.findings (first.withFindings [])
  rw [logged_withFindings, hrun] at hlogs
  obtain ⟨⟨other, quiet⟩, hquiet, hresult⟩ := Option.map_eq_some_iff.mp hlogs.symm
  cases hresult
  exact ⟨quiet, hquiet, rfl⟩

/-- What has been reported stays reported. -/
theorem keeps_findings (h : Logs action) (hrun : action.run first = some (value, last)) :
    first.findings <+: last.findings := by
  obtain ⟨quiet, -, rfl⟩ := h.run_quiet hrun
  exact List.prefix_append _ _

/-- Registries that differ in their findings only are treated alike. -/
theorem run_withFindings (h : Logs action) (hrun : action.run first = some (value, last))
    (findings : List Finding) :
    ∃ findings', action.run (first.withFindings findings) = some (value, last.withFindings findings') := by
  obtain ⟨quiet, hquiet, rfl⟩ := h.run_quiet hrun
  have hlogs := h findings (first.withFindings [])
  rw [hquiet] at hlogs
  have hstart : (first.withFindings []).logged findings = first.withFindings findings := by
    simp [Registry.logged, Resolver.logged, Registry.withFindings]
  rw [hstart] at hlogs
  exact ⟨_, hlogs⟩

end Logs

end ApiScribe
