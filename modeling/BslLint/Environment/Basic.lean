/-!
The environments in which a routine may run, and sets of them.

A set is a mask with one bit per environment. The operations on masks are the operations on sets
(`mem_union`, `mem_inter`, `mem_diff`, `mem_complement`).
-/

namespace BslLint

inductive Environment where
  | thinClient
  | webClient
  | mobileClient
  | thickClientOrdinaryApplication
  | thickClientManagedApplication
  | server
  | externalConnection
  | mobileAppClient
  | mobileAppServer
  | mobileStandaloneServer
deriving DecidableEq, Repr

namespace Environment

def all : List Environment :=
  [thinClient, webClient, mobileClient, thickClientOrdinaryApplication,
   thickClientManagedApplication, server, externalConnection, mobileAppClient, mobileAppServer,
   mobileStandaloneServer]

theorem mem_all (e : Environment) : e ∈ all := by cases e <;> decide

/-- The place of an environment in `all`, which is also its bit. -/
def index (e : Environment) : Nat := all.idxOf e

theorem index_lt (e : Environment) : e.index < 10 := by cases e <;> decide

theorem getElem?_index (e : Environment) : all[e.index]? = some e := by cases e <;> rfl

theorem index_injective {e f : Environment} (h : e.index = f.index) : e = f := by
  have he := e.getElem?_index
  rw [h, f.getElem?_index] at he
  exact (Option.some.inj he).symm

def label : Environment → String
  | thinClient => "thin client"
  | webClient => "web client"
  | mobileClient => "mobile client"
  | thickClientOrdinaryApplication => "thick client (ordinary application)"
  | thickClientManagedApplication => "thick client (managed application)"
  | server => "server"
  | externalConnection => "external connection"
  | mobileAppClient => "mobile application client"
  | mobileAppServer => "mobile application server"
  | mobileStandaloneServer => "mobile standalone server"

def code : Environment → String
  | thinClient => "thin_client"
  | webClient => "web_client"
  | mobileClient => "mobile_client"
  | thickClientOrdinaryApplication => "thick_client_ordinary_application"
  | thickClientManagedApplication => "thick_client_managed_application"
  | server => "server"
  | externalConnection => "external_connection"
  | mobileAppClient => "mobile_app_client"
  | mobileAppServer => "mobile_app_server"
  | mobileStandaloneServer => "mobile_standalone_server"

end Environment

/-- A set of environments, one bit of the mask for each. -/
structure EnvironmentSet where
  mask : BitVec 16
deriving DecidableEq, Repr

namespace EnvironmentSet

def empty : EnvironmentSet := ⟨0⟩

def only (e : Environment) : EnvironmentSet := ⟨BitVec.twoPow 16 e.index⟩

def union (s t : EnvironmentSet) : EnvironmentSet := ⟨s.mask ||| t.mask⟩

def inter (s t : EnvironmentSet) : EnvironmentSet := ⟨s.mask &&& t.mask⟩

def diff (s t : EnvironmentSet) : EnvironmentSet := ⟨s.mask &&& ~~~t.mask⟩

def ofList (es : List Environment) : EnvironmentSet := es.foldl (fun s e => s.union (only e)) empty

def all : EnvironmentSet := ofList Environment.all

def client : EnvironmentSet :=
  ofList [.thinClient, .webClient, .mobileClient, .thickClientOrdinaryApplication,
    .thickClientManagedApplication, .mobileAppClient]

def server : EnvironmentSet := ofList [.server, .mobileAppServer, .mobileStandaloneServer]

def contains (s : EnvironmentSet) (e : Environment) : Bool := s.mask.getLsbD e.index

instance : Membership Environment EnvironmentSet where
  mem s e := s.contains e = true

instance (e : Environment) (s : EnvironmentSet) : Decidable (e ∈ s) :=
  inferInstanceAs (Decidable (s.contains e = true))

def isEmpty (s : EnvironmentSet) : Bool := s.mask == 0

def isSubset (s t : EnvironmentSet) : Bool := s.mask &&& ~~~t.mask == 0

def intersects (s t : EnvironmentSet) : Bool := !(s.mask &&& t.mask == 0)

def complement (s : EnvironmentSet) : EnvironmentSet := all.diff s

def toList (s : EnvironmentSet) : List Environment := Environment.all.filter s.contains

def size (s : EnvironmentSet) : Nat := s.toList.length

def label (s : EnvironmentSet) : String :=
  if s.isEmpty then "none" else ", ".intercalate (s.toList.map Environment.label)

theorem mem_iff {s : EnvironmentSet} {e : Environment} : e ∈ s ↔ s.contains e = true := Iff.rfl

@[simp] theorem not_mem_empty (e : Environment) : ¬ e ∈ empty := by
  simp [mem_iff, contains, empty]

@[simp] theorem mem_only {e f : Environment} : e ∈ only f ↔ e = f := by
  have he := e.index_lt
  constructor
  · intro h
    simp only [mem_iff, contains, only, BitVec.getLsbD_twoPow, Bool.and_eq_true,
      decide_eq_true_eq] at h
    exact Environment.index_injective h.2.symm
  · rintro rfl
    simp [mem_iff, contains, only, BitVec.getLsbD_twoPow]
    omega

@[simp] theorem mem_union {s t : EnvironmentSet} {e : Environment} :
    e ∈ s.union t ↔ e ∈ s ∨ e ∈ t := by
  simp [mem_iff, contains, union]

@[simp] theorem mem_inter {s t : EnvironmentSet} {e : Environment} :
    e ∈ s.inter t ↔ e ∈ s ∧ e ∈ t := by
  simp [mem_iff, contains, inter]

@[simp] theorem mem_diff {s t : EnvironmentSet} {e : Environment} :
    e ∈ s.diff t ↔ e ∈ s ∧ ¬ e ∈ t := by
  have he : e.index < 16 := Nat.lt_trans e.index_lt (by decide)
  simp [mem_iff, contains, diff, he]

@[simp] theorem mem_all (e : Environment) : e ∈ all := by cases e <;> decide

@[simp] theorem mem_complement {s : EnvironmentSet} {e : Environment} :
    e ∈ s.complement ↔ ¬ e ∈ s := by
  simp [complement]

end EnvironmentSet

end BslLint
