import CallStake.Lib.Store
import CallStake.Shared.Host

/-!
# Capabilities (`shared::capabilities`, `shared::access_control`)

Named authorities that a contract grants to addresses.

* `hasCapability`: a super-administrator has every capability, and the role `admin` all but that one.
* `grantCapability`, `revokeCapability`: the two writes. Both ask whether the caller is a
  super-administrator and drop the answer.
-/

namespace CallStake.Capabilities

/-- The capabilities an address can hold. -/
inductive Capability where
  | pause
  | upgrade
  | treasury
  | parameterChange
  | emergency
  | superAdmin
  deriving DecidableEq

/-- `access_control::Role`. -/
inductive Role where
  | none
  | viewer
  | moderator
  | admin
  deriving DecidableEq

/-- The error of the capabilities. -/
inductive CapabilityError where
  | insufficientCapability

/-- The entries under `CapabilityStorageKey` and `RoleStorageKey`. -/
structure CapabilityStorage where
  grant : Store (Capability × Address) Bool
  role : Store Address Role

def CapabilityStorage.empty : CapabilityStorage := ⟨∅, ∅⟩

def granted (s : CapabilityStorage) (capability : Capability) (address : Address) : Bool :=
  (s.grant.lookup (capability, address)).getD false

/-- `access_control::get_role`. -/
def getRole (s : CapabilityStorage) (address : Address) : Role := (s.role.lookup address).getD .none

def hasCapability (s : CapabilityStorage) (address : Address) (capability : Capability) : Bool :=
  if granted s .superAdmin address then true
  else if capability ≠ .superAdmin ∧ getRole s address = .admin then true
  else granted s capability address

def requireCapability (s : CapabilityStorage) (address : Address) (capability : Capability) :
    Except CapabilityError Unit :=
  if hasCapability s address capability then .ok () else .error .insufficientCapability

/-- The result of the check is not looked at. -/
def grantCapability (s : CapabilityStorage) (caller address : Address) (capability : Capability) :
    CapabilityStorage :=
  let _ := requireCapability s caller .superAdmin
  { s with grant := s.grant.insert (capability, address) true }

/-- The result of the check is not looked at. -/
def revokeCapability (s : CapabilityStorage) (caller address : Address) (capability : Capability) :
    CapabilityStorage :=
  let _ := requireCapability s caller .superAdmin
  { s with grant := s.grant.erase (capability, address) }

end CallStake.Capabilities
