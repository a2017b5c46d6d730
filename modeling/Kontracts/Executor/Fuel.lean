import Kontracts.Executor.Exhaustion
import Mathlib.Data.ENat.Basic

namespace KontractsModel.Executor

/-- What a run returns as a function of its fuel: below one amount the start function runs out, from there
    to another one `main` does, and from then on it is always the same and not for want of fuel. -/
structure FuelGates (run : ℕ → Except Exit RawKontractStorage) (started total : ℕ∞)
    (result : Except Exit RawKontractStorage) : Prop where
  ordered : started ≤ total
  starting : ∀ fuel : ℕ, fuel < started → run fuel = .error (.error .impossibleCreateInstance)
  running : ∀ fuel : ℕ, started ≤ fuel → fuel < total → run fuel = .error (.error .outOfFuel)
  done : ∀ fuel : ℕ, total ≤ fuel → run fuel = result
  funded : result ≠ .error (.error .outOfFuel)

end KontractsModel.Executor

namespace KontractsProof.Executor

open Scale KontractsModel.Executor

section Traps

variable {host : Host} {caller caller' : Caller} {call : HostCall} {trap : Trap}

theorem updateWithCheck_trap {overflowChecks : Bool} {val max : UInt32} {rOrW : Bool}
    (refused : updateWithCheck overflowChecks val max rOrW = .error (.trap trap)) :
    Halt.trap trap = exceeded rOrW := by
  unfold updateWithCheck at refused
  cases added : addU32 overflowChecks val 1 with
  | error panic => simp [added, Except.mapError, Bind.bind, Except.bind] at refused
  | ok next =>
    simp only [added, Except.mapError, Bind.bind, Except.bind] at refused
    split at refused
    · cases refused
    · cases rOrW <;> exact (Except.error.inj refused).symm

theorem call_trap_reasons (failed : call.perform host caller = .error (.trap trap) caller') :
    (∃ rOrW, Halt.trap trap = exceeded rOrW) ∨ Halt.trap trap = impossibleReading ∨
      Halt.trap trap = impossibleWrite := by
  by_cases readable : (call.event host caller).isSome
  · cases counted : updateWithCheck host.overflowChecks (caller.data.count call.rOrW) (caller.data.limit call.rOrW)
        call.rOrW with
    | ok count => exact .inr (allowed_trap counted failed)
    | error why =>
      rw [perform_refused readable counted] at failed
      cases failed
      exact .inl ⟨_, updateWithCheck_trap counted⟩
  · rw [perform_unreadable (Option.not_isSome_iff_eq_none.mp readable)] at failed
    cases failed
    exact .inr (.inl rfl)

theorem call_trap_funded (failed : call.perform host caller = .error (.trap trap) caller') :
    classify trap.displayReason ≠ .outOfFuel := by
  rcases call_trap_reasons failed with ⟨rOrW, same⟩ | same | same
  · cases same
    cases rOrW <;> decide
  · cases same
    decide
  · cases same
    decide

end Traps

section Guests

variable {Guest : Type} {host : Host} {module : Module Guest} {caller : Caller} {s : Running Guest}

theorem takes_funded {needed : ℕ} {events : List HostEvent} {stop : Stop Guest}
    (takes : Metered.Takes (module.next host) s needed events stop) (left : ℕ) :
    finishMain (.stopped stop left) ≠ .error (.error .outOfFuel) := by
  cases stop with
  | returned guest caller =>
    simp only [finishMain]
    cases encodeKontractStorage caller.data.storage <;> simp [Except.mapError]
  | halted why caller =>
    cases why with
    | panic panic => simp [finishMain]
    | trap trap =>
      have other : classify trap.displayReason ≠ .outOfFuel := by
        obtain ⟨last, here | here⟩ := takes.last
        · cases stepped : module.step last.guest last.caller.memory with
          | done guest memory => simp [Module.next, stepped] at here
          | compute guest memory => simp [Module.next, stepped] at here
          | call call guest memory =>
            rw [next_call host module stepped] at here
            split at here <;> cases here
          | trap text =>
            simp only [Module.next, stepped, Metered.Step.stop.injEq, Stop.halted.injEq, Halt.trap.injEq] at here
            obtain ⟨rfl, -⟩ := here
            rw [classify_instruction]
            decide
        · obtain ⟨call, guest, memory, why, caller', -, failed, same⟩ := next_fault here
          cases same
          exact call_trap_funded failed
      simpa [finishMain] using other

section Gates

variable {run run' : ℕ → Except Exit RawKontractStorage} {total : ℕ∞} {result : Except Exit RawKontractStorage}

theorem gates_constant (same : ∀ fuel, run fuel = result) (funded : result ≠ .error (.error .outOfFuel)) :
    FuelGates run 0 0 result where
  ordered := le_rfl
  starting _ below := absurd below (not_lt_of_ge (zero_le))
  running _ _ below := absurd below (not_lt_of_ge (zero_le))
  done fuel _ := same fuel
  funded := funded

theorem gates_after (gates : FuelGates run' 0 total result) (needed : ℕ)
    (before : ∀ fuel, fuel < needed → run fuel = .error (.error .impossibleCreateInstance))
    (later : ∀ left, run (needed + left) = run' left) : FuelGates run needed (needed + total) result where
  ordered := le_self_add
  starting fuel below := before fuel (Nat.cast_lt.mp below)
  running fuel enough below := by
    obtain ⟨left, rfl⟩ := Nat.exists_eq_add_of_le (Nat.cast_le.mp enough)
    rw [Nat.cast_add, ENat.add_lt_add_iff_left (ENat.natCast_ne_top needed)] at below
    rw [later]
    exact gates.running left (zero_le) below
  done fuel enough := by
    have started : (needed : ℕ∞) ≤ fuel := le_self_add.trans enough
    obtain ⟨left, rfl⟩ := Nat.exists_eq_add_of_le (Nat.cast_le.mp started)
    rw [Nat.cast_add, ENat.add_le_add_iff_left (ENat.natCast_ne_top needed)] at enough
    rw [later]
    exact gates.done left enough
  funded := gates.funded

end Gates

theorem main_gates (host : Host) (module : Module Guest) (s : Running Guest) :
    ∃ total result, FuelGates (fun fuel => finishMain (Metered.run (module.next host) fuel s).2) 0 total result := by
  rcases Metered.takes_or_exhausts (module.next host) s with ⟨needed, events, stop, takes⟩ | exhausts
  · refine ⟨needed, finishMain (.stopped stop 0), zero_le, fun _ below => absurd below (not_lt_of_ge (zero_le)),
      fun fuel _ short => ?_, fun fuel enough => ?_, takes_funded takes 0⟩
    · simp only [takes.exhausted (Nat.cast_lt.mp short)]
      rfl
    · obtain ⟨left, rfl⟩ := Nat.exists_eq_add_of_le (Nat.cast_le.mp enough)
      simp only [takes left]
      cases stop with
      | returned => rfl
      | halted why => cases why <;> rfl
  · refine ⟨⊤, .error (.error .wasmPanic), zero_le, fun _ below => absurd below (not_lt_of_ge (zero_le)),
      fun fuel _ _ => ?_, fun fuel enough => ?_, by simp⟩
    · simp only [exhausts fuel]
      rfl
    · exact absurd (top_le_iff.mp enough) (ENat.natCast_ne_top fuel)

def afterStart (host : Host) (module : Module Guest) (s : Running Guest) (left : ℕ) : Except Exit RawKontractStorage :=
  match module.main with
  | none => .error (.error .mainEntryPointNotDefined)
  | some enter => finishMain (Metered.run (module.next host) left ⟨enter s.guest, s.caller⟩).2

theorem afterStart_gates (host : Host) (module : Module Guest) (s : Running Guest) :
    ∃ total result, FuelGates (afterStart host module s) 0 total result := by
  cases defined : module.main with
  | none =>
    have same : ∀ fuel, afterStart host module s fuel = .error (.error .mainEntryPointNotDefined) := fun fuel => by
      simp only [afterStart, defined]
    exact ⟨0, _, gates_constant same (by simp)⟩
  | some enter =>
    have same : afterStart host module s =
        fun fuel => finishMain (Metered.run (module.next host) fuel ⟨enter s.guest, s.caller⟩).2 := by
      funext fuel
      simp only [afterStart, defined]
    rw [same]
    exact main_gates host module ⟨enter s.guest, s.caller⟩

theorem started_eq (host : Host) (caller : Caller) (links : module.links) {enter : Guest → Guest}
    (defined : module.start = some enter) (fuel : ℕ) :
    (runModule host module fuel caller).2 =
      match finishStart (Metered.run (module.next host) fuel ⟨enter module.initial, caller⟩).2 with
      | .error exit => .error exit
      | .ok (s, left) => afterStart host module s left := by
  rw [runModule, instantiate_start host fuel caller links defined]
  generalize finishStart (Metered.run (module.next host) fuel ⟨enter module.initial, caller⟩).2 = finished
  cases finished with
  | error exit => rfl
  | ok both =>
    simp only [afterStart]
    cases module.main <;> rfl

theorem module_gates (host : Host) (module : Module Guest) (caller : Caller) :
    ∃ started total result, FuelGates (fun fuel => (runModule host module fuel caller).2) started total result := by
  by_cases links : module.links
  · cases defined : module.start with
    | none =>
      obtain ⟨total, result, gates⟩ := afterStart_gates host module ⟨module.initial, caller⟩
      have same : (fun fuel => (runModule host module fuel caller).2) =
          afterStart host module ⟨module.initial, caller⟩ := by
        funext fuel
        simp only [runModule, instantiate, links, defined, not_true_eq_false, if_false, afterStart]
        cases module.main <;> rfl
      rw [same]
      exact ⟨0, total, result, gates⟩
    | some enter =>
      have whole := started_eq host caller links defined
      rcases Metered.takes_or_exhausts (module.next host) ⟨enter module.initial, caller⟩ with
        ⟨needed, events, stop, takes⟩ | exhausts
      · have before : ∀ fuel, fuel < needed →
            (runModule host module fuel caller).2 = .error (.error .impossibleCreateInstance) := fun fuel short => by
          rw [whole, takes.exhausted short]
          rfl
        cases stop with
        | returned guest caller' =>
          obtain ⟨total, result, gates⟩ := afterStart_gates host module ⟨guest, caller'⟩
          exact ⟨_, _, _, gates_after gates needed before fun left => by rw [whole, takes left]; rfl⟩
        | halted why caller' =>
          cases why with
          | panic panic =>
            have gates := gates_constant (fun _ => rfl) (show Except.error (Exit.panic panic) ≠ _ by simp)
            exact ⟨_, _, _, gates_after gates needed before fun left => by rw [whole, takes left]; rfl⟩
          | trap trap =>
            have gates := gates_constant (fun _ => rfl)
              (show Except.error (Exit.error .impossibleCreateInstance) ≠ _ by simp)
            exact ⟨_, _, _, gates_after gates needed before fun left => by rw [whole, takes left]; rfl⟩
      · refine ⟨⊤, ⊤, .error (.error .wasmPanic), le_rfl, fun fuel _ => ?_, fun fuel enough => ?_,
          fun fuel enough => ?_, by simp⟩
        · rw [whole, exhausts fuel]
          rfl
        · exact absurd (top_le_iff.mp enough) (ENat.natCast_ne_top fuel)
        · exact absurd (top_le_iff.mp enough) (ENat.natCast_ne_top fuel)
  · have same : ∀ fuel, (runModule host module fuel caller).2 = .error (.error .impossibleCreateInstance) :=
      fun fuel => by
        rw [runModule, instantiate, if_pos links]
    exact ⟨0, 0, _, gates_constant same (by simp)⟩

end Guests

theorem prepare_fails {node : Node} {code : Bytes} {storage : RawKontractStorage} {maxRead maxWrite : UInt32}
    {error : ExecutionErrors} (failed : prepare node code storage maxRead maxWrite = .error error) :
    error ∈ [.impossibleCreateEngine, .incorrecBinary, .impossibleDecodingKontractStorage, .impossibleAddFuel] := by
  unfold prepare at failed
  simp only [Bind.bind, Except.bind, pure, Except.pure, throw, throwThe, MonadExceptOf.throw] at failed
  split at failed
  · cases failed
    simp
  · split at failed
    · split at failed
      · split_ifs at failed <;> cases failed <;> simp
      · cases failed
        simp
    · cases failed
      simp

/-- Fuel decides how far an execution gets, and nothing else: below one amount the start function fails to
    finish, from there on `main` does up to a second amount, and beyond that the result is always the same. -/
theorem fuel_only_gates (node : Node) (code : Bytes) (storage : RawKontractStorage) (maxRead maxWrite : UInt32) :
    ∃ (started total : ℕ∞) (result : Except Exit RawKontractStorage), started ≤ total ∧
      result ≠ .error (.error .outOfFuel) ∧ ∀ fuel : UInt32, executeCode node code storage fuel maxRead maxWrite =
        if (fuel.toNat : ℕ∞) < started then .error (.error .impossibleCreateInstance)
        else if (fuel.toNat : ℕ∞) < total then .error (.error .outOfFuel) else result := by
  cases prepared : prepare node code storage maxRead maxWrite with
  | error error =>
    refine ⟨0, 0, .error (.error error), le_rfl, ?_, fun fuel => ?_⟩
    · simp only [ne_eq, Except.error.injEq, Exit.error.injEq]
      rintro rfl
      simpa using prepare_fails prepared
    · simp only [executeCode, traced, prepared, not_lt_zero, if_false]
  | ok ready =>
    obtain ⟨module, store⟩ := ready
    obtain ⟨started, total, result, gates⟩ := module_gates node.toHost module ⟨store, module.memory⟩
    refine ⟨started, total, result, gates.ordered, gates.funded, fun fuel => ?_⟩
    have ran : executeCode node code storage fuel maxRead maxWrite =
        (runModule node.toHost module fuel.toNat ⟨store, module.memory⟩).2 := by
      simp only [executeCode, traced, prepared]
    rw [ran]
    split
    · rename_i below
      exact gates.starting _ below
    · rename_i enough
      split
      · rename_i below
        exact gates.running _ (not_lt.mp enough) below
      · rename_i enough
        exact gates.done _ (not_lt.mp enough)

end KontractsProof.Executor
