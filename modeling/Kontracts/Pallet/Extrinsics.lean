import Kontracts.Pallet.State

namespace KontractsModel.Pallet

open Scale KontractsModel.Executor

/-- `usize as i32` keeps the low 32 bits. -/
def getStorageSize (storageEncoded : Bytes) : Except Abort Int32 :=
  match Compact.decode storageEncoded with
  | some (_, refSliceVec) => .ok (Int32.ofNat refSliceVec.length)
  | none => .error (.panic (.expect "LLLLOOLLL"))

def checkedI32 (overflowChecks : Bool) (overflow : Panic) (exact : ℤ) (wrapped : Int32) : Except Abort Int32 :=
  if -2 ^ 31 ≤ exact ∧ exact < 2 ^ 31 then .ok wrapped
  else if overflowChecks then .error (.panic overflow)
  else .ok wrapped

def subI32 (overflowChecks : Bool) (a b : Int32) : Except Abort Int32 :=
  checkedI32 overflowChecks .subOverflow (a.toInt - b.toInt) (a - b)

def mulI32 (overflowChecks : Bool) (a b : Int32) : Except Abort Int32 :=
  checkedI32 overflowChecks .mulOverflow (a.toInt * b.toInt) (a * b)

/-- What the `match` on the size difference leaves of the signer's account, and whether the call
    goes on to commit or returns early. -/
inductive Settlement
  | proceed (account : AccountData)
  | exceeded (account : AccountData)

def settle (currency : Currency) (overflowChecks : Bool) (account : AccountData)
    (x expectedModifiedStorage : Int32) : Except Abort Settlement :=
  if x = 0 then .ok (.proceed account)
  else if x ≤ expectedModifiedStorage ∧ x < 0 then do
    let freed ← mulI32 overflowChecks x (-1)
    return .proceed (currency.unreserve account freed.toUInt32.toNat)
  else if x ≤ expectedModifiedStorage then
    match currency.reserve account x.toUInt32.toNat with
    | some account => .ok (.proceed account)
    | none => .error (.dispatch (.module .depositError))
  -- also a storage that shrank by less than declared: its negative difference is cast to `u32`
  else .ok (.exceeded (currency.slash account x.toUInt32.toNat))

/-- The lengths of a bounded map are `u32`, so encoding it cannot fail. -/
def encodeStorage {limits : Limits} (storage : KontractStorage limits) : RawKontractStorage :=
  encodeMap (fun key => encodeVec key.1) (fun value => encodeVec value.1) storage.inner

def decodeStorage (limits : Limits) (raw : RawKontractStorage) : Option (KontractStorage limits) :=
  (BoundedBTreeMap.decode limits.maxKontracStorageKeySize.toNat limits.maxKontracStorageValueSize.toNat
    limits.maxKontracStorageSize.toNat raw).map Prod.fst

def Abort.ofExit : Exit → Abort
  | .error error => .dispatch (.module (.executionCode error))
  | .panic why => .panic why

section Calls

variable {Id Account : Type} [DecidableEq Id] [DecidableEq Account]

/-- Every call that returns `Ok` deposits one event last; the model returns that event as well. -/
def returnEvent {limits : Limits} (block : ℕ) (event : Event Id Account) (s : State limits Id Account) :
    Except Abort (Event Id Account × State limits Id Account) :=
  .ok (event, s.depositEvent block event)

def uploadCode (cfg : Config Id) (block : ℕ) (origin : Origin Account) (code : Code cfg.limits)
    (s : State cfg.limits Id Account) :
    Except Abort (Event Id Account × State cfg.limits Id Account) := do
  let who ← ensureSigned origin
  let codeId := cfg.hashingAlgorith code.1
  returnEvent block (.newCodeUploaded codeId who) (s.setCode codeId (some code))

inductive Verdict (limits : Limits)
  | committed (storage : KontractStorage limits) (account : AccountData)
  | exceeded (account : AccountData)

def execution (node : Node) (cfg : Config Id) (code : Option (Code cfg.limits))
    (storage : KontractStorage cfg.limits) (account : AccountData) (expectedModifiedStorage : Int32)
    (fuel expectedRead expectedWrite : UInt32) : Except Abort (Verdict cfg.limits) := do
  let some code := code | throw (.dispatch (.module .invalidCodeId))
  let oldStorageRaw := encodeStorage storage
  let oldStorageSize ← getStorageSize oldStorageRaw
  let newStorageRaw ←
    (Executor.executeCode node code.1 oldStorageRaw fuel expectedRead expectedWrite).mapError Abort.ofExit
  let newStorageSize ← getStorageSize newStorageRaw
  let x ← subI32 cfg.overflowChecks newStorageSize oldStorageSize
  match ← settle cfg.currency cfg.overflowChecks account x expectedModifiedStorage with
  | .exceeded account => return .exceeded account
  | .proceed account =>
    match decodeStorage cfg.limits newStorageRaw with
    | some storage => return .committed storage account
    | none => throw (.dispatch (.module (.executionCode .unexpectedBehavoiur)))

def executeCode (node : Node) (cfg : Config Id) (block : ℕ) (origin : Origin Account) (codeId : Id)
    (expectedModifiedStorage : Int32) (fuel expectedRead expectedWrite : UInt32)
    (s : State cfg.limits Id Account) :
    Except Abort (Event Id Account × State cfg.limits Id Account) := do
  let who ← ensureSigned origin
  match ← execution node cfg (s.codes codeId) (s.storages codeId) (s.accounts who)
      expectedModifiedStorage fuel expectedRead expectedWrite with
  | .exceeded account => returnEvent block (.exceededStorage codeId who) (s.setAccount who account)
  | .committed storage account =>
    returnEvent block (.codeExecuted codeId who) ((s.setAccount who account).setStorage codeId storage)

def deleteCode (cfg : Config Id) (block : ℕ) (origin : Origin Account) (codeId : Id)
    (s : State cfg.limits Id Account) :
    Except Abort (Event Id Account × State cfg.limits Id Account) := do
  ensureRoot origin
  returnEvent block (.codeDeleted codeId) (s.setCode codeId none)

def updateCode (cfg : Config Id) (block : ℕ) (origin : Origin Account) (oldCodeId : Id)
    (code : Code cfg.limits) (s : State cfg.limits Id Account) :
    Except Abort (Event Id Account × State cfg.limits Id Account) := do
  ensureRoot origin
  let s := s.setCode oldCodeId none
  let newCodeId := cfg.hashingAlgorith code.1
  returnEvent block (.codeUpgraded oldCodeId newCodeId) (s.setCode newCodeId (some code))

inductive Call (limits : Limits) (Id : Type)
  | uploadCode (code : Code limits)
  | executeCode (codeId : Id) (expectedModifiedStorage : Int32) (fuel expectedRead expectedWrite : UInt32)
  | deleteCode (codeId : Id)
  | updateCode (oldCodeId : Id) (code : Code limits)

structure Extrinsic (limits : Limits) (Id Account : Type) where
  block : ℕ
  origin : Origin Account
  call : Call limits Id

def Extrinsic.run (node : Node) (cfg : Config Id) (s : State cfg.limits Id Account)
    (x : Extrinsic cfg.limits Id Account) :
    Except Abort (Event Id Account × State cfg.limits Id Account) :=
  match x.call with
  | .uploadCode code => uploadCode cfg x.block x.origin code s
  | .executeCode codeId expectedModifiedStorage fuel expectedRead expectedWrite =>
    executeCode node cfg x.block x.origin codeId expectedModifiedStorage fuel expectedRead expectedWrite s
  | .deleteCode codeId => deleteCode cfg x.block x.origin codeId s
  | .updateCode oldCodeId code => updateCode cfg x.block x.origin oldCodeId code s

/-- A call that does not return `Ok` leaves the state as it was. -/
def dispatch (node : Node) (cfg : Config Id) (s : State cfg.limits Id Account)
    (x : Extrinsic cfg.limits Id Account) : Except Abort (Event Id Account) × State cfg.limits Id Account :=
  match x.run node cfg s with
  | .ok (event, s') => (.ok event, s')
  | .error abort => (.error abort, s)

def step (node : Node) (cfg : Config Id) (s : State cfg.limits Id Account)
    (x : Extrinsic cfg.limits Id Account) : State cfg.limits Id Account :=
  (dispatch node cfg s x).2

end Calls

end KontractsModel.Pallet
