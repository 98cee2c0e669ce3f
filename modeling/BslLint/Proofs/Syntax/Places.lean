import BslLint.Scope
import Mathlib.Data.List.Basic
import Mathlib.Tactic.Common

/-!
The place of a method leads to its scope.

The scope of a declared method is searched for through all items, one after the other. The place of
the method says at which index of which list the search has to go down, and nowhere else is anything
found; so the search finds what the place leads to (`Item.searchFrom?_eq_scopeAt?`).
-/

namespace BslLint

namespace Item

/-- The scope of the method at a place, followed down from the scope of the items. -/
def scopeAt? (scope : Scope) (items : List Item) : List Nat → Option Scope
  | [] => none
  | index :: rest =>
    match items[index]?, rest with
    | some (.method m), [] => some (scope.enterMethod m)
    | some (.region r inner), _ => scopeAt? (scope.enterRegion r) inner rest
    | _, _ => none

lemma scopeAt?_method {scope : Scope} {items : List Item} {index : Nat} {f : Method}
    (h : items[index]? = some (.method f)) :
    scopeAt? scope items [index] = some (scope.enterMethod f) := by
  simp [scopeAt?, h]

lemma scopeAt?_region {scope : Scope} {items inner : List Item} {index : Nat} {g : Region}
    (h : items[index]? = some (.region g inner)) (path : List Nat) :
    scopeAt? scope items (index :: path) = scopeAt? (scope.enterRegion g) inner path := by
  simp [scopeAt?, h]

lemma scopeAt?_cons_succ (scope : Scope) (item : Item) (items : List Item) (index : Nat)
    (path : List Nat) :
    scopeAt? scope (item :: items) ((index + 1) :: path) =
      scopeAt? scope items (index :: path) := by
  simp [scopeAt?]

/-! ### Where the search finds nothing -/

mutual

lemma search?_eq_none {target : List Nat} (scope : Scope) {place : List Nat}
    (h : ¬place.reverse <+: target) : ∀ item : Item, search? target scope place item = none
  | .method m => by
    rw [search?, if_neg]
    rintro rfl
    exact h (List.prefix_refl _)
  | .region r items => by
    rw [search?]
    exact searchFrom?_eq_none _ (fun k _ hk => h ((List.prefix_append _ _).trans hk)) items

lemma searchFrom?_eq_none {target : List Nat} (scope : Scope) {place : List Nat}
    {index : Nat} (h : ∀ k, index ≤ k → ¬place.reverse ++ [k] <+: target) :
    ∀ items : List Item, searchFrom? target scope place index items = none
  | [] => rfl
  | item :: items => by
    have hfirst : ¬(index :: place).reverse <+: target := by
      simpa using h index (Nat.le_refl index)
    rw [searchFrom?, search?_eq_none scope hfirst item]
    exact searchFrom?_eq_none scope (fun k hk => h k (Nat.le_of_succ_le hk)) items

end

lemma not_prefix_of_ne (place : List Nat) {k index : Nat} (h : k ≠ index) (path : List Nat) :
    ¬place ++ [k] <+: place ++ index :: path := by
  simpa [List.prefix_append_right_inj] using h

/-! ### Where it goes down -/

mutual

lemma search?_append (scope : Scope) (place path : List Nat) : ∀ item : Item,
    search? (place.reverse ++ path) scope place item = scopeAt? scope [item] (0 :: path)
  | .method m => by
    cases path with
    | nil => simp [search?, scopeAt?]
    | cons k path => simp [search?, scopeAt?]
  | .region r items => by
    rw [search?, scopeAt?_region rfl]
    cases path with
    | nil =>
      rw [scopeAt?]
      refine searchFrom?_eq_none _ (fun k _ hk => ?_) items
      have hlength : place.length + 1 ≤ place.length := by simpa using hk.length_le
      omega
    | cons k path => simpa using searchFrom?_append (scope.enterRegion r) place 0 k path items

lemma searchFrom?_append (scope : Scope) (place : List Nat) (index k : Nat) (path : List Nat) :
    ∀ items : List Item,
      searchFrom? (place.reverse ++ (index + k) :: path) scope place index items =
        scopeAt? scope items (k :: path)
  | [] => by simp [searchFrom?, scopeAt?]
  | item :: items => by
    rw [searchFrom?]
    cases k with
    | zero =>
      have hfirst : search? (place.reverse ++ index :: path) scope (index :: place) item =
          scopeAt? scope [item] (0 :: path) := by
        simpa using search?_append scope (index :: place) path item
      have hrest : searchFrom? (place.reverse ++ index :: path) scope place (index + 1) items =
          none :=
        searchFrom?_eq_none scope
          (fun k hk => not_prefix_of_ne _ (Nat.ne_of_gt hk) path) items
      have hsame : scopeAt? scope (item :: items) (0 :: path) =
          scopeAt? scope [item] (0 :: path) := by
        simp [scopeAt?]
      rw [Nat.add_zero, hfirst, hrest, hsame]
      cases scopeAt? scope [item] (0 :: path) <;> rfl
    | succ k =>
      have hmiss : ¬(index :: place).reverse <+: place.reverse ++ (index + (k + 1)) :: path := by
        rw [List.reverse_cons]
        exact not_prefix_of_ne _ (by omega) path
      have hnext : index + (k + 1) = index + 1 + k := by omega
      rw [search?_eq_none scope hmiss item, scopeAt?_cons_succ, hnext]
      exact searchFrom?_append scope place (index + 1) k path items

end

/-- **The search finds what the place leads to.** -/
theorem searchFrom?_eq_scopeAt? (scope : Scope) (items : List Item) (path : List Nat) :
    searchFrom? path scope [] 0 items = scopeAt? scope items path := by
  cases path with
  | nil => exact searchFrom?_eq_none scope (by simp) items
  | cons k path => simpa using searchFrom?_append scope [] 0 k path items

end Item

lemma Scope.ofDeclaration_eq (m : Module) (d : Declaration) :
    Scope.ofDeclaration m d =
      match Item.scopeAt? (Scope.ofModule m) m.items d.path with
      | some s => return s
      | none => .error (.undeclared d.method.name m.name) := by
  cases hs : Item.scopeAt? (Scope.ofModule m) m.items d.path <;>
    simp [Scope.ofDeclaration, Item.searchFrom?_eq_scopeAt?, hs]

end BslLint
