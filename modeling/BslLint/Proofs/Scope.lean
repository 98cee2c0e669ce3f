import BslLint.Proofs.Environment
import BslLint.Proofs.Syntax.Occurrences

/-!
What the environments of a method mean.

A condition is a Boolean formula that is true or false in each environment (`Condition.Holds`), and
the set that is computed for it holds the environments in which it is true. On the way down to a
method (`Item.Leads`) every region narrows the set by its condition, and the method by its
directives, so that the environments of the method are those of the module in which all these
allow it. The masks of the sets have no other bits.
-/

namespace BslLint

/-! ### Conditions -/

namespace Condition

mutual

def Holds (e : Environment) : Condition → Prop
  | .symbol s => e ∈ s.environments
  | .not operand => ¬operand.Holds e
  | .and parts => AllHold e parts
  | .or parts => SomeHolds e parts

def AllHold (e : Environment) : List Condition → Prop
  | [] => True
  | c :: cs => c.Holds e ∧ AllHold e cs

def SomeHolds (e : Environment) : List Condition → Prop
  | [] => False
  | c :: cs => c.Holds e ∨ SomeHolds e cs

end

-- The folds over parts start from any set, so that the induction can pass it on.
mutual

/-- **The set of a condition** holds the environments in which it is true. -/
theorem mem_environments {e : Environment} : ∀ c : Condition, e ∈ c.environments ↔ c.Holds e
  | .symbol s => by rw [environments, Holds]
  | .not operand => by
    rw [environments, Holds, EnvironmentSet.mem_complement, mem_environments operand]
  | .and parts => by
    rw [environments, Holds, mem_interAll parts]
    simp
  | .or parts => by
    rw [environments, Holds, mem_unionAll parts]
    simp

lemma mem_interAll {e : Environment} : ∀ (cs : List Condition) {s : EnvironmentSet},
    e ∈ interAll s cs ↔ e ∈ s ∧ AllHold e cs
  | [], s => by simp [interAll, AllHold]
  | c :: cs, s => by
    rw [interAll, AllHold, mem_interAll cs, EnvironmentSet.mem_inter, mem_environments c, and_assoc]

lemma mem_unionAll {e : Environment} : ∀ (cs : List Condition) {s : EnvironmentSet},
    e ∈ unionAll s cs ↔ e ∈ s ∨ SomeHolds e cs
  | [], s => by simp [unionAll, SomeHolds]
  | c :: cs, s => by
    rw [unionAll, SomeHolds, mem_unionAll cs, EnvironmentSet.mem_union, mem_environments c,
      or_assoc]

end

instance (e : Environment) (c : Condition) : Decidable (c.Holds e) :=
  decidable_of_iff (e ∈ c.environments) (mem_environments c)

mutual

lemma clean_environments : ∀ c : Condition, c.environments.Clean
  | .symbol s => by cases s <;> decide
  | .not operand => by
    rw [environments]
    exact EnvironmentSet.Clean.diff (EnvironmentSet.clean_ofList _)
  | .and parts => by
    rw [environments]
    exact clean_interAll parts (EnvironmentSet.clean_ofList _)
  | .or parts => by
    rw [environments]
    exact clean_unionAll parts (EnvironmentSet.clean_ofList [])

lemma clean_interAll : ∀ (cs : List Condition) {s : EnvironmentSet}, s.Clean → (interAll s cs).Clean
  | [], s, hs => hs
  | c :: cs, s, hs => by
    rw [interAll]
    exact clean_interAll cs (clean_environments c).inter_right

lemma clean_unionAll : ∀ (cs : List Condition) {s : EnvironmentSet}, s.Clean → (unionAll s cs).Clean
  | [], s, hs => hs
  | c :: cs, s, hs => by
    rw [unionAll]
    exact clean_unionAll cs (hs.union (clean_environments c))

end

end Condition

/-! ### The way to a method -/

/-- The place leads down the items to the method, through the regions, the outermost first. -/
inductive Item.Leads : List Item → List Nat → List Region → Method → Prop
  | method {items : List Item} {index : Nat} {f : Method} :
      items[index]? = some (.method f) → Leads items [index] [] f
  | region {items inner : List Item} {index : Nat} {path : List Nat} {g : Region}
      {regions : List Region} {f : Method} :
      items[index]? = some (.region g inner) → Leads inner path regions f →
      Leads items (index :: path) (g :: regions) f

namespace Scope

/-- The scope inside nested regions, the outermost first. -/
def enterRegions (s : Scope) (regions : List Region) : Scope := regions.foldl enterRegion s

lemma enterRegions_cons (s : Scope) (g : Region) (regions : List Region) :
    s.enterRegions (g :: regions) = (s.enterRegion g).enterRegions regions := rfl

lemma mem_environments_enterRegions {s : Scope} {regions : List Region} {e : Environment} :
    e ∈ (s.enterRegions regions).environments ↔
      e ∈ s.environments ∧ ∀ g ∈ regions, g.condition.Holds e := by
  induction regions generalizing s with
  | nil => simp [enterRegions]
  | cons g regions ih =>
    rw [enterRegions_cons, ih, List.forall_mem_cons, ← Condition.mem_environments, ← and_assoc]
    exact and_congr_left' EnvironmentSet.mem_inter

lemma clean_environments_enterRegions {s : Scope} (hs : s.environments.Clean)
    (regions : List Region) : (s.enterRegions regions).environments.Clean := by
  induction regions generalizing s with
  | nil => exact hs
  | cons g regions ih => exact ih (Condition.clean_environments g.condition).inter_right

end Scope

lemma Item.Leads.scopeAt?_eq {items : List Item} {path : List Nat} {regions : List Region}
    {f : Method} (h : Leads items path regions f) (scope : Scope) :
    scopeAt? scope items path = some ((scope.enterRegions regions).enterMethod f) := by
  induction h generalizing scope with
  | method hitem => exact scopeAt?_method hitem
  | region hitem _ ih => rw [scopeAt?_region hitem, ih, Scope.enterRegions_cons]

lemma Event.mem_ofItems {scope : Scope} {items : List Item} {item : Item} {event : Event}
    (hitem : item ∈ items) (hevent : event ∈ ofItem scope item) : event ∈ ofItems scope items := by
  induction items with
  | nil => cases hitem
  | cons first items ih =>
    rw [ofItems, List.mem_append]
    rcases List.mem_cons.1 hitem with rfl | hitem
    · exact Or.inl hevent
    · exact Or.inr (ih hitem)

lemma Item.Leads.mem_ofItems {items : List Item} {path : List Nat} {regions : List Region}
    {f : Method} (h : Leads items path regions f) (scope : Scope) :
    .method f ((scope.enterRegions regions).enterMethod f) ∈ Event.ofItems scope items := by
  induction h generalizing scope with
  | method hitem =>
    refine Event.mem_ofItems (List.mem_of_getElem? hitem) ?_
    rw [Event.ofItem]
    exact List.mem_cons_self
  | region hitem _ ih =>
    refine Event.mem_ofItems (List.mem_of_getElem? hitem) ?_
    rw [Event.ofItem]
    exact ih _

/-- **The environments of a method are those that the source allows.** For every way from the items
of a module down to a method, the scope that is looked up for the method, in which the walk shows it
too, has just the environments of the module in which the condition of every region on the way is
true and which the method, if it has directives, names by one of them. No mask has a bit that is not
one of an environment: not that of any condition, not that of the method, and, for a module whose
mask has none, not that of any region on the way. -/
theorem Scope.mem_environments_iff_allowed (m : Module) (path : List Nat) (regions : List Region)
    (f : Method) (h : Item.Leads m.items path regions f) :
    ∃ s, Scope.ofDeclaration m ⟨path, f⟩ = .ok s ∧ .method f s ∈ Event.ofModule m ∧
      (∀ e, e ∈ s.environments ↔
        e ∈ m.environments ∧ (∀ g ∈ regions, g.condition.Holds e) ∧
          (f.directives = [] ∨ ∃ d ∈ f.directives, e ∈ d.environments)) ∧
      (∀ c : Condition, c.environments.Clean) ∧ s.environments.Clean ∧
      (m.environments.Clean → ∀ outer, outer <+: regions →
        ((Scope.ofModule m).enterRegions outer).environments.Clean) := by
  refine ⟨((ofModule m).enterRegions regions).enterMethod f, ?_, ?_, fun e => ?_,
    Condition.clean_environments, (Directive.clean_environmentsOf f.directives).inter_right,
    fun hclean outer _ => clean_environments_enterRegions hclean outer⟩
  · rw [ofDeclaration_eq, h.scopeAt?_eq]
    rfl
  · exact List.mem_append_left _ (h.mem_ofItems (ofModule m))
  · rw [← Directive.mem_environmentsOf, ← and_assoc]
    exact EnvironmentSet.mem_inter.trans (and_congr_left' mem_environments_enterRegions)

/-- Two directives, and two regions whose conditions nest negations, conjunctions and disjunctions,
some of these without parts. Of the three environments of the module the outer region drops the thin
client, the inner one leaves the others, and the directives keep the server. -/
theorem Scope.mem_environments_iff_allowed_nested :
    let f : Method :=
      ⟨"А".toList, .procedure, false, [.atServer, .atServerNoContext], [], [], none, none, none⟩
    let outer : Region :=
      ⟨.not (.and [.symbol .client, .or [.symbol .thinClient, .or []]]), none, none⟩
    let inner : Region :=
      ⟨.or [.not (.symbol .server), .and [.symbol .atServer, .and []]], none, none⟩
    let m : Module := {
      name := "М".toList
      source := []
      environments := .ofList [.thinClient, .thickClientManagedApplication, .server]
      items := [.region outer [.region inner [.method f]]] }
    ∃ s, Scope.ofDeclaration m ⟨[0, 0, 0], f⟩ = .ok s ∧ ∀ e, e ∈ s.environments ↔ e = .server := by
  intro f outer inner m
  obtain ⟨s, hs, -, hiff, -⟩ := Scope.mem_environments_iff_allowed m [0, 0, 0] [outer, inner] f
    (.region rfl (.region rfl (.method rfl)))
  refine ⟨s, hs, fun e => (hiff e).trans ?_⟩
  cases e <;> decide

end BslLint
