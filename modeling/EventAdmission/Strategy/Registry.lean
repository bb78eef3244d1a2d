import EventAdmission.Strategy.Validator

/-!
# The registry of strategies

Strategies are registered by name while the program starts. A name is taken
once; the finished registry does not change any more.
-/

namespace EventAdmission

inductive RegistryError where
  | duplicate (name : String)
  | unknown (name : String)
deriving DecidableEq

def RegistryError.message : RegistryError → String
  | duplicate name => "validation strategy [" ++ name ++ "] is already registered"
  | unknown name => "validation strategy [" ++ name ++ "] is not registered"

structure RegistryBuilder where
  strategies : Keyed Strategy

structure Registry where
  strategies : Keyed Strategy

namespace RegistryBuilder

def empty : RegistryBuilder := ⟨[]⟩

def register (b : RegistryBuilder) (name : String) (s : Strategy) :
    Logged (Except RegistryError RegistryBuilder) :=
  if Keyed.contains b.strategies name then
    ⟨[.strategyDuplicate name], .error (.duplicate name)⟩
  else
    ⟨[.strategyRegistered name s.kind.name], .ok ⟨Keyed.insert b.strategies name s⟩⟩

def registerAll (b : RegistryBuilder) :
    List (String × Strategy) → Logged (Except RegistryError RegistryBuilder)
  | [] => .silent (.ok b)
  | (name, s) :: rest => (b.register name s).andThen fun b => registerAll b rest

def build (b : RegistryBuilder) : Logged Registry :=
  ⟨[.registryBuilt (Keyed.keys b.strategies)], ⟨b.strategies⟩⟩

end RegistryBuilder

namespace Registry

def ofList (strategies : List (String × Strategy)) : Logged (Except RegistryError Registry) :=
  (RegistryBuilder.empty.registerAll strategies).andThen fun b => b.build.map .ok

def standard (draft : Draft) : Logged (Except RegistryError Registry) :=
  ofList (StrategyKind.all.map fun k => (k.name, Strategy.ofKind draft k))

def get (r : Registry) (name : String) : Except RegistryError Strategy :=
  match Keyed.find? r.strategies name with
  | some s => .ok s
  | none => .error (.unknown name)

def contains (r : Registry) (name : String) : Bool := Keyed.contains r.strategies name

def size (r : Registry) : Nat := r.strategies.length

def isEmpty (r : Registry) : Bool := r.strategies.isEmpty

end Registry

end EventAdmission
