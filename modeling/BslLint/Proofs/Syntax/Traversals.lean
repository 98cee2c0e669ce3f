import BslLint.Proofs.Syntax.Occurrences
import BslLint.Proofs.Syntax.Spans

/-!
The traversals of a module agree.

Three functions go down the items of a module on their own: one lists the methods, one looks a
method up at its place, and the walk carries the scope along. Here the walk is cut into the
stretches that belong to the methods (`Visit`): their methods are the listed ones, in the same
order, and the scope of each stretch, which all that is shown in it has, is the one that the look-up
finds.
-/

namespace BslLint

/-! ### What a visitor is shown -/

namespace Event

def record (seen : List Event) (e : Event) : Checked (List Event) := return seen ++ [e]

lemma walk_record (seen events : List Event) :
    walk (fun _ => false) record seen events = .ok (seen ++ events) := by
  induction events generalizing seen with
  | nil => simp [walk]
  | cons e events ih => simp [walk, record, ih]

def methods (events : List Event) : List (Method × Scope) := events.filterMap method?

@[simp] lemma methods_append (a b : List Event) : methods (a ++ b) = methods a ++ methods b := by
  simp [methods]

@[simp] lemma methods_method (f : Method) (scope : Scope) (events : List Event) :
    methods (.method f scope :: events) = (f, scope) :: methods events := rfl

lemma methods_eq_nil {scope : Scope} {events : List Event} (h : ∀ e ∈ events, e.Inside scope) :
    methods events = [] :=
  List.filterMap_eq_nil_iff.2 fun e he => (h e he).method?_eq

end Event

/-! ### Stretches of the walk -/

/-- A stretch of the walk: a method, the scope it is shown in, and what is shown up to the next
method. -/
structure Visit where
  method : Method
  scope : Scope
  inner : List Event

namespace Visit

def events (v : Visit) : List Event := .method v.method v.scope :: v.inner

/-- What is shown behind the method are its statements: all of it has the scope of the method, and
every call in the statements, at whatever depth, is shown once. -/
structure Complete (v : Visit) : Prop where
  inside : ∀ e ∈ v.inner, e.Inside v.scope
  calls : (Event.occurrences v.inner).Perm
    (callsIn v.scope (Statement.nodesList v.method.statements))

/-- The stretch belongs to the declared method, in the scope that is looked up for it. -/
structure Of (m : Module) (d : Declaration) (v : Visit) : Prop where
  method_eq : v.method = d.method
  lookup : Scope.ofDeclaration m d = .ok v.scope
  complete : v.Complete

/-- The stretch of the method with the given scope. -/
def ofScope (f : Method) (scope : Scope) : Visit :=
  ⟨f, scope, Event.ofStatements scope f.statements⟩

lemma complete_ofScope (f : Method) (scope : Scope) : (ofScope f scope).Complete :=
  ⟨fun _ h => (Event.mem_ofStatements h).1, Event.ofStatements_perm scope f.statements⟩

lemma events_ofScope {f : Method} {scope : Scope} (h : scope.method = some f) :
    (ofScope f scope).events = Event.ofRoutine scope := by
  simp [Event.ofRoutine, Scope.statements, h, events, ofScope]

lemma methods_flatMap_events {m : Module} {ds : List Declaration} {vs : List Visit}
    (h : List.Forall₂ (Of m) ds vs) :
    Event.methods (vs.flatMap events) = vs.map fun v => (v.method, v.scope) := by
  induction h with
  | nil => rfl
  | cons hv _ ih =>
    rw [List.flatMap_cons, Event.methods_append, ih, events, Event.methods_method,
      Event.methods_eq_nil hv.complete.inside]
    rfl

lemma exists_forall₂_of {m : Module} {ds : List Declaration} {scopes : List Scope}
    (h : List.Forall₂ (Declaration.HasScope m) ds scopes) :
    ∃ vs, List.Forall₂ (Of m) ds vs ∧ vs.flatMap events = scopes.flatMap Event.ofRoutine := by
  induction h with
  | nil => exact ⟨[], .nil, rfl⟩
  | @cons d scope ds scopes hd _ ih =>
    obtain ⟨vs, hvs, heq⟩ := ih
    refine ⟨ofScope d.method scope :: vs, .cons ⟨rfl, hd.lookup, complete_ofScope _ _⟩ hvs, ?_⟩
    rw [List.flatMap_cons, List.flatMap_cons, events_ofScope hd.method_eq, heq]

end Visit

/-! ### Places -/

namespace Item

-- The places of the items behind an index start with a larger index.
mutual

lemma exists_path_of_mem_declarations {place : List Nat} {d : Declaration} :
    ∀ {item : Item}, d ∈ item.declarations place → ∃ rest, d.path = place.reverse ++ rest
  | .method f, h => by
    rw [declarations, List.mem_singleton] at h
    exact ⟨[], by simp [h]⟩
  | .region g items, h => by
    rw [declarations] at h
    obtain ⟨i, rest, -, hpath⟩ := exists_path_of_mem_declarationsFrom h
    exact ⟨i :: rest, hpath⟩

lemma exists_path_of_mem_declarationsFrom {place : List Nat} {index : Nat} {d : Declaration} :
    ∀ {items : List Item}, d ∈ declarationsFrom place index items →
      ∃ i rest, index ≤ i ∧ d.path = place.reverse ++ i :: rest
  | [], h => by simp [declarationsFrom] at h
  | item :: items, h => by
    rw [declarationsFrom, List.mem_append] at h
    rcases h with h | h
    · obtain ⟨rest, hpath⟩ := exists_path_of_mem_declarations h
      exact ⟨index, rest, Nat.le_refl _, by simp [hpath]⟩
    · obtain ⟨i, rest, hi, hpath⟩ := exists_path_of_mem_declarationsFrom h
      exact ⟨i, rest, by omega, hpath⟩

end

mutual

lemma nodup_path_declarations (place : List Nat) : ∀ item : Item,
    ((item.declarations place).map Declaration.path).Nodup
  | .method f => by simp [declarations]
  | .region g items => by
    rw [declarations]
    exact nodup_path_declarationsFrom place 0 items

lemma nodup_path_declarationsFrom (place : List Nat) (index : Nat) : ∀ items : List Item,
    ((declarationsFrom place index items).map Declaration.path).Nodup
  | [] => by simp [declarationsFrom]
  | item :: items => by
    rw [declarationsFrom, List.map_append]
    refine List.nodup_append.2 ⟨nodup_path_declarations (index :: place) item,
      nodup_path_declarationsFrom place (index + 1) items, fun path hfirst path' hlater => ?_⟩
    obtain ⟨d, hd, rfl⟩ := List.mem_map.1 hfirst
    obtain ⟨d', hd', rfl⟩ := List.mem_map.1 hlater
    obtain ⟨rest, hpath⟩ := exists_path_of_mem_declarations hd
    obtain ⟨i, rest', hi, hpath'⟩ := exists_path_of_mem_declarationsFrom hd'
    intro hsame
    have hindex : index = i := by
      rw [hpath, hpath', List.reverse_cons, List.append_assoc] at hsame
      exact (List.cons.inj (List.append_cancel_left hsame)).1
    omega

end

end Item

/-- **The traversals of a module agree.** In a walk that nobody calls off the visitor is shown the
methods of the module in the order in which they are listed, each at a place of its own, and each in
the scope that the look-up at this place finds; behind a method it is shown the statements of the
method, every call in them once, in the same scope. -/
theorem Module.traversals_agree (m : Module) :
    ∃ (seen : List Event) (visits : List Visit) (body : List Event),
      walk (fun _ => false) Event.record [] (Event.ofModule m) = .ok seen ∧
      seen = visits.flatMap Visit.events ++ body ∧
      Event.methods seen = visits.map (fun v => (v.method, v.scope)) ∧
      visits.map Visit.method = m.methods ∧
      (m.declarations.map Declaration.path).Nodup ∧
      List.Forall₂ (Visit.Of m) m.declarations visits ∧
      ∀ e ∈ body, e.Inside (Scope.ofModule m) := by
  obtain ⟨visits, hvisits, hevents⟩ := Visit.exists_forall₂_of m.forall₂_declarations
  have hbody : ∀ e ∈ Event.ofStatements (Scope.ofModule m) m.statements,
      e.Inside (Scope.ofModule m) := fun _ h => (Event.mem_ofStatements h).1
  have hseen : Event.ofModule m =
      visits.flatMap Visit.events ++ Event.ofStatements (Scope.ofModule m) m.statements := by
    rw [Event.ofModule_eq, Module.routineScopes, List.flatMap_append, hevents,
      List.flatMap_singleton]
    rfl
  refine ⟨_, visits, _, Event.walk_record [] _, by simpa using hseen, ?_, ?_, ?_, hvisits, hbody⟩
  · rw [List.nil_append, hseen, Event.methods_append, Visit.methods_flatMap_events hvisits,
      Event.methods_eq_nil hbody, List.append_nil]
  · rw [Module.methods, ← Item.map_method_declarationsFrom [] 0 m.items, eq_comm,
      ← List.forall₂_eq_eq_eq, List.forall₂_map_left_iff, List.forall₂_map_right_iff]
    exact hvisits.imp fun d v hv => hv.method_eq.symm
  · exact Item.nodup_path_declarationsFrom [] 0 m.items

end BslLint
