import Kontracts.Executor.Exhaustion
import Kontracts.Pallet.Sizes

namespace KontractsModel.Pallet

open Scale KontractsModel.Executor

section Saturation

def saturatingAdd (a b : UInt64) : UInt64 := UInt64.ofNat (min (a.toNat + b.toNat) (2 ^ 64 - 1))

def saturatingMul (a b : UInt64) : UInt64 := UInt64.ofNat (min (a.toNat * b.toNat) (2 ^ 64 - 1))

end Saturation

/-- The price of one access to the database, in units of `ref_time`. -/
structure RuntimeDbWeight where
  read : UInt64
  write : UInt64

namespace RuntimeDbWeight

def writes (price : RuntimeDbWeight) (w : UInt64) : UInt64 := saturatingMul price.write w

def readsWrites (price : RuntimeDbWeight) (r w : UInt64) : UInt64 :=
  saturatingAdd (saturatingMul price.read r) (saturatingMul price.write w)

end RuntimeDbWeight

def rocksDbWeight : RuntimeDbWeight := ⟨25000000, 100000000⟩

def checkedU64 (overflowChecks : Bool) (overflow : Panic) (exact : ℕ) : Except Panic UInt64 :=
  if exact < 2 ^ 64 then .ok (UInt64.ofNat exact)
  else if overflowChecks then .error overflow
  else .ok (UInt64.ofNat exact)

def addU64 (overflowChecks : Bool) (a b : UInt64) : Except Panic UInt64 :=
  checkedU64 overflowChecks .addOverflow (a.toNat + b.toNat)

def mulU64 (overflowChecks : Bool) (a b : UInt64) : Except Panic UInt64 :=
  checkedU64 overflowChecks .mulOverflow (a.toNat * b.toNat)

def weigh (overflowChecks : Bool) (database unit amount : UInt64) : Except Panic UInt64 := do
  let base ← addU64 overflowChecks 10000 database
  let work ← mulU64 overflowChecks unit amount
  addU64 overflowChecks base work

namespace Call

variable {Id : Type}

def weight (overflowChecks : Bool) (price : RuntimeDbWeight) {limits : Limits} : Call limits Id → Except Panic UInt64
  | .uploadCode code => weigh overflowChecks (price.writes 1) 155 (UInt64.ofNat code.1.length)
  | .executeCode _ _ fuel expectedRead expectedWrite =>
    weigh overflowChecks (price.readsWrites expectedRead.toUInt64 expectedWrite.toUInt64) 100 fuel.toUInt64
  | .deleteCode _ => .ok 0
  | .updateCode _ code => weigh overflowChecks (price.writes 1) 155 (UInt64.ofNat code.1.length)

def charge (price : RuntimeDbWeight) {limits : Limits} : Call limits Id → ℕ
  | .uploadCode code | .updateCode _ code => 10000 + price.write.toNat + 155 * code.1.length
  | .executeCode _ _ fuel expectedRead expectedWrite =>
    10000 + price.read.toNat * expectedRead.toNat + price.write.toNat * expectedWrite.toNat + 100 * fuel.toNat
  | .deleteCode _ => 0

end Call

/-- What guest code costs that completes these calls, with so many units of fuel. -/
def spending (price : RuntimeDbWeight) (units : ℕ) (events : List HostEvent) : ℕ :=
  10000 + price.read.toNat * completedCalls false events + price.write.toNat * completedCalls true events +
    100 * units

end KontractsModel.Pallet

namespace KontractsProof.Pallet

open Scale KontractsModel KontractsModel.Executor KontractsModel.Pallet

section Arithmetic

variable {overflowChecks : Bool} {a b : UInt64}

theorem saturatingAdd_exact (small : a.toNat + b.toNat < 2 ^ 64) : (saturatingAdd a b).toNat = a.toNat + b.toNat := by
  rw [saturatingAdd, Nat.min_eq_left (by omega), UInt64.toNat_ofNat_of_lt' small]

theorem saturatingMul_exact (small : a.toNat * b.toNat < 2 ^ 64) : (saturatingMul a b).toNat = a.toNat * b.toNat := by
  rw [saturatingMul, Nat.min_eq_left (by omega), UInt64.toNat_ofNat_of_lt' small]

theorem weigh_exact (overflowChecks : Bool) (database unit amount : UInt64)
    (small : 10000 + database.toNat + unit.toNat * amount.toNat < 2 ^ 64) :
    ∃ weight, weigh overflowChecks database unit amount = .ok weight ∧
      weight.toNat = 10000 + database.toNat + unit.toNat * amount.toNat := by
  have baseFits : (10000 : UInt64).toNat + database.toNat < 2 ^ 64 := by
    have value : (10000 : UInt64).toNat = 10000 := rfl
    omega
  have workFits : unit.toNat * amount.toNat < 2 ^ 64 := by omega
  have base : (UInt64.ofNat ((10000 : UInt64).toNat + database.toNat)).toNat = 10000 + database.toNat :=
    UInt64.toNat_ofNat_of_lt' baseFits
  have work : (UInt64.ofNat (unit.toNat * amount.toNat)).toNat = unit.toNat * amount.toNat :=
    UInt64.toNat_ofNat_of_lt' workFits
  refine ⟨UInt64.ofNat (10000 + database.toNat + unit.toNat * amount.toNat), ?_, UInt64.toNat_ofNat_of_lt' small⟩
  simp only [weigh, addU64, mulU64, checkedU64, if_pos baseFits, if_pos workFits, ok_bind, base, work, if_pos small]

end Arithmetic

section Calls

variable {Id : Type} {limits : Limits} {overflowChecks : Bool} {price : RuntimeDbWeight}

theorem accesses_exact (affordable : price.read.toNat + price.write.toNat ≤ 2 ^ 31) (reads writes : UInt32) :
    (price.readsWrites reads.toUInt64 writes.toUInt64).toNat =
        price.read.toNat * reads.toNat + price.write.toNat * writes.toNat ∧
      price.read.toNat * reads.toNat + price.write.toNat * writes.toNat < 2 ^ 63 := by
  have readsCost : price.read.toNat * reads.toNat ≤ price.read.toNat * 2 ^ 32 :=
    Nat.mul_le_mul_left _ (UInt32.toNat_lt reads).le
  have writesCost : price.write.toNat * writes.toNat ≤ price.write.toNat * 2 ^ 32 :=
    Nat.mul_le_mul_left _ (UInt32.toNat_lt writes).le
  have strict : price.read.toNat * reads.toNat + price.write.toNat * writes.toNat < 2 ^ 63 := by
    rcases Nat.eq_zero_or_pos (price.read.toNat + price.write.toNat) with free | paid
    · obtain ⟨noRead, noWrite⟩ := Nat.add_eq_zero_iff.mp free
      simp [noRead, noWrite]
    · have reading : price.read.toNat * (reads.toNat + 1) ≤ price.read.toNat * 2 ^ 32 :=
        Nat.mul_le_mul_left _ (UInt32.toNat_lt reads)
      have writing : price.write.toNat * (writes.toNat + 1) ≤ price.write.toNat * 2 ^ 32 :=
        Nat.mul_le_mul_left _ (UInt32.toNat_lt writes)
      rw [Nat.mul_add, Nat.mul_one] at reading writing
      omega
  have reading : (saturatingMul price.read reads.toUInt64).toNat = price.read.toNat * reads.toNat := by
    rw [saturatingMul_exact (by rw [UInt32.toNat_toUInt64]; omega), UInt32.toNat_toUInt64]
  have writing : (saturatingMul price.write writes.toUInt64).toNat = price.write.toNat * writes.toNat := by
    rw [saturatingMul_exact (by rw [UInt32.toNat_toUInt64]; omega), UInt32.toNat_toUInt64]
  refine ⟨?_, strict⟩
  rw [RuntimeDbWeight.readsWrites, saturatingAdd_exact (by omega), reading, writing]

theorem code_weight (affordable : price.read.toNat + price.write.toNat ≤ 2 ^ 31) {length : ℕ} (fits : length < 2 ^ 32) :
    ∃ weight, weigh overflowChecks (price.writes 1) 155 (UInt64.ofNat length) = .ok weight ∧
      weight.toNat = 10000 + price.write.toNat + 155 * length := by
  have amount : (UInt64.ofNat length).toNat = length := UInt64.toNat_ofNat_of_lt' (show length < 2 ^ 64 by omega)
  have database : (price.writes 1).toNat = price.write.toNat := by
    have one : (1 : UInt64).toNat = 1 := rfl
    rw [RuntimeDbWeight.writes, saturatingMul_exact (by rw [one]; omega), one, Nat.mul_one]
  have unit : (155 : UInt64).toNat = 155 := rfl
  have exact := weigh_exact overflowChecks (price.writes 1) 155 (UInt64.ofNat length)
    (by rw [amount, database, unit]; omega)
  rwa [amount, database, unit] at exact

theorem weight_charge (affordable : price.read.toNat + price.write.toNat ≤ 2 ^ 31) (call : Call limits Id) :
    ∃ weight, call.weight overflowChecks price = .ok weight ∧ weight.toNat = call.charge price := by
  cases call with
  | uploadCode code | updateCode old code =>
    exact code_weight affordable (Nat.lt_of_le_of_lt code.2 (UInt32.toNat_lt limits.maxCodeSize))
  | deleteCode codeId => exact ⟨0, rfl, rfl⟩
  | executeCode codeId expected fuel reads writes =>
    obtain ⟨database, small⟩ := accesses_exact affordable reads writes
    have unit : (100 : UInt64).toNat = 100 := rfl
    have units := UInt32.toNat_lt fuel
    obtain ⟨weight, weighed, value⟩ := weigh_exact overflowChecks
      (price.readsWrites reads.toUInt64 writes.toUInt64) 100 fuel.toUInt64
      (by rw [database, unit, UInt32.toNat_toUInt64]; omega)
    refine ⟨weight, weighed, ?_⟩
    rw [value, database, unit, UInt32.toNat_toUInt64, Call.charge]
    omega

theorem spending_le {node : Node} {code : Bytes} {storage : RawKontractStorage} {metered reads writes : UInt32}
    {module : Module node.wasmtime.Guest} {phase : Phase} {burned : ℕ} {events : List HostEvent}
    {s : Running node.wasmtime.Guest}
    (here : Executor.GuestAt node code storage metered reads writes module phase burned events s) {fuel : UInt32}
    {units : ℕ} (supplied : units ≤ fuel.toNat) (codeId : Id) (declared : Int32) :
    spending price units events ≤
      (Call.executeCode codeId declared fuel reads writes : Call limits Id).charge price := by
  have counted := Executor.guest_counted here
  have reading : price.read.toNat * completedCalls false events ≤ price.read.toNat * reads.toNat :=
    Nat.mul_le_mul_left _ (counted.below false)
  have writing : price.write.toNat * completedCalls true events ≤ price.write.toNat * writes.toNat :=
    Nat.mul_le_mul_left _ (counted.below true)
  simp only [spending, Call.charge]
  omega

/-- The weight of every call is its exact charge. That of an execution covers the fuel supplied and the calls
    completed, however far the metering lets the guest code go, and all the fuel burned where that is no more. -/
theorem weight_covers (overflowChecks : Bool) (affordable : price.read.toNat + price.write.toNat ≤ 2 ^ 31)
    (call : Call limits Id) :
    ∃ weight, call.weight overflowChecks price = .ok weight ∧ weight.toNat = call.charge price ∧
      ∀ codeId declared fuel reads writes, call = .executeCode codeId declared fuel reads writes →
        ∀ (node : Node) code storage metered (module : Module node.wasmtime.Guest) phase burned events s,
          Executor.GuestAt node code storage metered reads writes module phase burned events s →
          spending price fuel.toNat events ≤ weight.toNat ∧
            (burned ≤ fuel.toNat → spending price burned events ≤ weight.toNat) := by
  obtain ⟨weight, weighed, value⟩ := weight_charge affordable call
  refine ⟨weight, weighed, value, ?_⟩
  rintro codeId declared fuel reads writes rfl node code storage metered module phase burned events s here
  rw [value]
  exact ⟨spending_le here (Nat.le_refl _) codeId declared, fun within => spending_le here within codeId declared⟩

end Calls

section Charged

def storingStored : Running Script where
  guest := .done
  caller := ⟨⟨0, 1, 0, 1, BTreeMap.empty.insert (List.replicate 32 0) []⟩, some page⟩

theorem storing_set_at :
    Executor.GuestAt localNode storingCode [0] 10 0 1 (storing.module page) .main 1 [.set [] []] storingStored := by
  have ready : Executor.Prepared localNode storingCode [0] (storing.module page) BTreeMap.empty :=
    ⟨rfl, rfl, ⟨[], rfl⟩, rfl, fun _ _ => rfl⟩
  have stored : (storing.module page).next localNode.toHost
      ⟨storing, Executor.freshStore 0 1 BTreeMap.empty, some page⟩ =
        .burn (.ok (some (.set [] []), storingStored)) := rfl
  have passes : Executor.Passes localNode.toHost (storing.module page) (10 : UInt32).toNat
      ⟨Executor.freshStore 0 1 BTreeMap.empty, some page⟩ .main (10 - 10 + 1) ([] ++ [.set [] []]) storingStored :=
    .main rfl rfl (.step stored (.refl _)) (by decide)
  exact ⟨_, ready, passes⟩

/-- One unit is supplied, and the guest code is let go on for ten. -/
theorem storing_weight_covers :
    ∃ weight : UInt64, spending rocksDbWeight (1 : UInt32).toNat [.set [] []] ≤ weight.toNat ∧
      spending rocksDbWeight 1 [.set [] []] ≤ weight.toNat ∧ weight.toNat = 100010100 := by
  have affordable : rocksDbWeight.read.toNat + rocksDbWeight.write.toNat ≤ 2 ^ 31 := by decide
  obtain ⟨weight, -, value, covers⟩ := weight_covers true affordable
    (Call.executeCode [] 35 1 0 1 : Call runtimeLimits Bytes)
  obtain ⟨supplied, burned⟩ := covers _ _ _ _ _ rfl _ _ _ _ _ _ _ _ _ storing_set_at
  exact ⟨weight, supplied, burned (by decide), value⟩

end Charged

end KontractsProof.Pallet
