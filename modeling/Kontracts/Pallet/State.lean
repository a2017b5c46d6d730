import Kontracts.Executor.ExecuteCode
import Kontracts.Library.Bounded
import Kontracts.Library.Escrow

namespace KontractsModel.Pallet

open Scale KontractsModel.Executor

structure Limits where
  maxNumberContracts : UInt32
  maxKontracStorageValueSize : UInt32
  maxKontracStorageKeySize : UInt32
  maxKontracStorageSize : UInt32
  maxCodeSize : UInt32

def runtimeLimits : Limits where
  maxNumberContracts := 1000
  maxCodeSize := 1000000
  maxKontracStorageKeySize := 512
  maxKontracStorageValueSize := 1024
  maxKontracStorageSize := 1048576

abbrev AccountData := Escrow.Holding

/-- `Currency` and `ReservableCurrency`: each operation reads and writes the data of the account it
    is given. `reserve` fails with `none`. -/
structure Currency where
  reserve : AccountData → ℕ → Option AccountData
  unreserve : AccountData → ℕ → AccountData
  slash : AccountData → ℕ → AccountData

structure Config (Id : Type) where
  limits : Limits
  currency : Currency
  hashingAlgorith : Bytes → Id
  overflowChecks : Bool

abbrev Code (limits : Limits) := BoundedVec UInt8 limits.maxCodeSize.toNat

abbrev KontractStorage (limits : Limits) :=
  BoundedBTreeMap (BoundedVec UInt8 limits.maxKontracStorageKeySize.toNat)
    (BoundedVec UInt8 limits.maxKontracStorageValueSize.toNat) limits.maxKontracStorageSize.toNat

def emptyStorage (limits : Limits) : KontractStorage limits := ⟨BTreeMap.empty, Nat.zero_le _⟩

inductive Event (Id Account : Type)
  | newCodeUploaded (codeId : Id) (who : Account)
  | codeExecuted (codeId : Id) (who : Account)
  | codeDeleted (codeId : Id)
  | codeUpgraded (oldCodeId newCodeId : Id)
  | exceededStorage (codeId : Id) (who : Account)
deriving DecidableEq

inductive Error
  | invalidCodeId
  | executionCode (error : ExecutionErrors)
  | exceededFuel
  | wrongStorageEncoding
  | depositError
deriving DecidableEq

inductive DispatchError
  | badOrigin
  | module (error : Error)
deriving DecidableEq

inductive Abort
  | dispatch (error : DispatchError)
  | panic (panic : Panic)
deriving DecidableEq

inductive Origin (Account : Type)
  | root
  | signed (who : Account)
  | none

def ensureSigned {Account : Type} : Origin Account → Except Abort Account
  | .signed who => .ok who
  | _ => .error (.dispatch .badOrigin)

def ensureRoot {Account : Type} : Origin Account → Except Abort Unit
  | .root => .ok ()
  | _ => .error (.dispatch .badOrigin)

structure State (limits : Limits) (Id Account : Type) where
  codes : Id → Option (Code limits)
  storages : Id → KontractStorage limits
  accounts : Account → AccountData
  events : List (Event Id Account)

namespace State

variable {limits : Limits} {Id Account : Type}

def setCode [DecidableEq Id] (s : State limits Id Account) (codeId : Id) (code : Option (Code limits)) :
    State limits Id Account :=
  { s with codes := Function.update s.codes codeId code }

def setStorage [DecidableEq Id] (s : State limits Id Account) (codeId : Id) (storage : KontractStorage limits) :
    State limits Id Account :=
  { s with storages := Function.update s.storages codeId storage }

def setAccount [DecidableEq Account] (s : State limits Id Account) (who : Account) (account : AccountData) :
    State limits Id Account :=
  { s with accounts := Function.update s.accounts who account }

/-- frame_system keeps no events of block 0. -/
def depositEvent (s : State limits Id Account) (block : ℕ) (event : Event Id Account) :
    State limits Id Account :=
  if block = 0 then s else { s with events := s.events ++ [event] }

section Frames

variable [DecidableEq Id] (s : State limits Id Account) (codeId : Id)

@[simp] theorem setCode_storages (code : Option (Code limits)) :
    (s.setCode codeId code).storages = s.storages := rfl

@[simp] theorem setCode_accounts (code : Option (Code limits)) :
    (s.setCode codeId code).accounts = s.accounts := rfl

@[simp] theorem setStorage_codes (storage : KontractStorage limits) :
    (s.setStorage codeId storage).codes = s.codes := rfl

@[simp] theorem setStorage_accounts (storage : KontractStorage limits) :
    (s.setStorage codeId storage).accounts = s.accounts := rfl

end Frames

@[simp] theorem setAccount_codes [DecidableEq Account] (s : State limits Id Account) (who : Account)
    (account : AccountData) : (s.setAccount who account).codes = s.codes := rfl

@[simp] theorem setAccount_storages [DecidableEq Account] (s : State limits Id Account) (who : Account)
    (account : AccountData) : (s.setAccount who account).storages = s.storages := rfl

section Events

variable (s : State limits Id Account) (block : ℕ) (event : Event Id Account)

@[simp] theorem depositEvent_codes : (s.depositEvent block event).codes = s.codes := by
  unfold depositEvent
  split <;> rfl

@[simp] theorem depositEvent_storages : (s.depositEvent block event).storages = s.storages := by
  unfold depositEvent
  split <;> rfl

@[simp] theorem depositEvent_accounts : (s.depositEvent block event).accounts = s.accounts := by
  unfold depositEvent
  split <;> rfl

end Events

end State

end KontractsModel.Pallet
