import Kontracts.Guest.Macro

namespace KontractsProof.Guest

open Scale KeyValue KontractsModel KontractsModel.Executor KontractsModel.Guest KontractsProof.Executor

section Buffers

variable {mem : Memory}

theorem slice_some {first count : ℕ} {bytes : Bytes} (held : mem.slice first count = some bytes) :
    first + count ≤ mem.size ∧ bytes = mem.window first count := by
  unfold Memory.slice at held
  split at held
  · split at held
    · exact ⟨by omega, (Option.some.inj held).symm⟩
    · cases held
  · cases held

theorem slice_inside {first count : ℕ} (inside : first + count ≤ mem.size) :
    mem.slice first count = some (mem.window first count) := by
  unfold Memory.slice
  rw [if_pos (by omega), if_pos (by omega)]

theorem ResultVec.room (result : ResultVec mem) :
    result.len.toNat = 100 ∧ result.ptr.toNat + 100 ≤ mem.size := by
  obtain ⟨inside, zeros⟩ := slice_some result.held
  have length := congrArg List.length zeros
  simp only [List.length_replicate, Memory.window, List.length_map, List.length_range] at length
  have hundred : MaxValueBytes.toNat = 100 := rfl
  omega

theorem window_store (mem : Memory) (first : ℕ) {count : ℕ} {source : Bytes} (short : source.length ≤ count) :
    ∃ tail, (mem.store first source).window first count = source ++ tail := by
  refine ⟨mem.window (first + source.length) (count - source.length), ?_⟩
  refine List.ext_getElem ?_ fun i inLeft inRight => ?_
  · simp only [Memory.window, List.length_map, List.length_range, List.length_append]
    omega
  · simp only [Memory.window, List.length_map, List.length_range] at inLeft
    simp only [Memory.window, Memory.store, List.getElem_map, List.getElem_range, Nat.le_add_right, if_true,
      Nat.add_sub_cancel_left]
    by_cases stored : i < source.length
    · simp [stored]
    · have past : source.length ≤ i := Nat.le_of_not_lt stored
      have position : first + source.length + (i - source.length) = first + i := by omega
      simp [List.getElem_append_right past, past, position]

end Buffers

section Calls

variable {host : Host} {keys : Set Key} {table : Table Key Value} {reads writes : ℕ} {caller : Caller} {mem : Memory}
  {key : Key}

structure Serves (host : Host) (keys : Set Key) (table : Table Key Value) (reads writes : ℕ) (caller : Caller) : Prop
    where
  room : Room caller reads writes
  agrees : Agrees host.hashed keys caller.data.storage table

theorem counter_allows (overflowChecks : Bool) {val max : UInt32} (rOrW : Bool) {rest : ℕ}
    (room : val.toNat + (rest + 1) ≤ max.toNat) :
    updateWithCheck overflowChecks val max rOrW = .ok (val + 1) ∧ (val + 1).toNat = val.toNat + 1 := by
  have fits : val.toNat + 1 < 2 ^ 32 := by
    have bound := max.toNat_lt
    omega
  have below : val < max := UInt32.lt_iff_toNat_lt.mpr (by omega)
  rw [updateWithCheck_fits overflowChecks val max rOrW fits, if_pos below]
  exact ⟨rfl, toNat_succ fits⟩

theorem Serves.written (serves : Serves host keys table reads (writes + 1) caller)
    (injective : Set.InjOn host.hashed keys) (write : Write Key Value) (used : write.key ∈ keys) :
    Serves host keys (write.apply table) reads writes
      ((caller.setMemory (some mem)).setData ((caller.data.setWrites (caller.data.currNWrite + 1)).setStorage
        (write.applyTo host.hashed caller.data.storage))) := by
  have room := serves.room.writes
  have next := (counter_allows host.overflowChecks true room).2
  refine ⟨⟨serves.room.reads, ?_⟩, serves.agrees.apply injective write used⟩
  change (caller.data.currNWrite + 1).toNat + writes ≤ caller.data.maxNWrite.toNat
  omega

theorem write_serves (injective : Set.InjOn host.hashed keys) (used : key ∈ keys)
    (serves : Serves host keys table reads (writes + 1) caller) {value : Value} (keyVec : GuestVec mem key)
    (valueVec : GuestVec mem value) :
    ∃ caller', write host keyVec valueVec caller = .ok () caller' ∧
      Serves host keys ((Write.set key value).apply table) reads writes caller' := by
  have counted := (counter_allows host.overflowChecks true serves.room.writes).1
  have completed : Completed host (caller.setMemory (some mem))
      (.set keyVec.ptr keyVec.len valueVec.ptr valueVec.len) _ _ := .set keyVec.held valueVec.held counted
  exact ⟨_, completed.perform_eq, serves.written injective (.set key value) used⟩

theorem delete_serves (injective : Set.InjOn host.hashed keys) (used : key ∈ keys)
    (serves : Serves host keys table reads (writes + 1) caller) (keyVec : GuestVec mem key) :
    ∃ caller', delete host keyVec caller = .ok () caller' ∧
      Serves host keys ((Write.remove key).apply table) reads writes caller' := by
  have counted := (counter_allows host.overflowChecks true serves.room.writes).1
  have completed : Completed host (caller.setMemory (some mem)) (.remove keyVec.ptr keyVec.len) _ _ :=
    .remove keyVec.held counted
  exact ⟨_, completed.perform_eq, serves.written injective (.remove key) used⟩

theorem read_eq (keyVec : GuestVec mem key) (result : ResultVec mem) :
    read host keyVec result caller =
      match (HostCall.get keyVec.ptr keyVec.len result.ptr result.len).perform host (caller.setMemory (some mem)) with
      | .ok _ caller' =>
        match (caller'.argument result.ptr result.len).bind decodeVec with
        | some (value, _) => .ok value caller'
        | none => .error abort caller'
      | .error why caller' => .error why caller' := by
  unfold Guest.read
  rw [modify_bind, bind_apply]
  cases (HostCall.get keyVec.ptr keyVec.len result.ptr result.len).perform host (caller.setMemory (some mem)) with
  | error why caller' => rfl
  | ok _ caller' =>
    simp only [get_bind]
    cases ((caller'.argument result.ptr result.len).bind decodeVec) <;> rfl

theorem stored_decodes {ptr : UInt32} {value : Value} {len : UInt32} (short : value.length < 64)
    (hundred : len.toNat = 100) (inside : ptr.toNat + 100 ≤ mem.size)
    (written : caller.memory = some (mem.store ptr.toNat (encodeVec value))) :
    ∃ tail, (caller.argument ptr len).bind decodeVec = some (value, tail) := by
  have length := encodeVec_length_small value short
  obtain ⟨tail, window⟩ := window_store mem ptr.toNat
    (show (encodeVec value).length ≤ len.toNat by omega)
  have argument : caller.argument ptr len = some (encodeVec value ++ tail) := by
    have room : ptr.toNat + len.toNat ≤ (mem.store ptr.toNat (encodeVec value)).size := by
      change _ ≤ mem.size
      omega
    simp only [Caller.argument, written, Option.bind_some, slice_inside room, window]
  have decoded := decodeVec_reads value (by omega) tail
  exact ⟨tail, by rw [argument, Option.bind_some, decoded]⟩

theorem read_serves (used : key ∈ keys) (serves : Serves host keys table (reads + 1) writes caller)
    (keyVec : GuestVec mem key) (result : ResultVec mem) (short : ((table key).getD []).length < 64) :
    ∃ caller', read host keyVec result caller = .ok ((table key).getD []) caller' ∧
      Serves host keys table reads writes caller' := by
  obtain ⟨hundred, inside⟩ := ResultVec.room result
  obtain ⟨counted, next⟩ := counter_allows host.overflowChecks false serves.room.reads
  have found : (caller.setMemory (some mem)).data.storage.get (host.blake2 key).1 = table key :=
    serves.agrees key used
  have fits : FitsAt mem result.ptr ((table key).getD []) := ⟨short, by omega⟩
  have room : ((table key).getD []).length ≤ result.len.toNat := by omega
  obtain ⟨caller', completed, written, data⟩ : ∃ caller',
      Completed host (caller.setMemory (some mem)) (.get keyVec.ptr keyVec.len result.ptr result.len)
        (.get key (table key) result.ptr) caller' ∧
      caller'.memory = some (mem.store result.ptr.toNat (encodeVec ((table key).getD []))) ∧
      caller'.data = caller.data.setReads (caller.data.currNRead + 1) := by
    rw [← found] at fits room ⊢
    exact ⟨_, .get keyVec.held counted rfl room fits, rfl, rfl⟩
  obtain ⟨tail, decoded⟩ := stored_decodes short hundred inside written
  have limit := serves.room.reads
  refine ⟨caller', ?_, ⟨?_, ?_⟩, ?_⟩
  · simp only [read_eq, completed.perform_eq, decoded]
  · rw [data]
    change (caller.data.currNRead + 1).toNat + reads ≤ caller.data.maxNRead.toNat
    omega
  · rw [data]
    exact serves.room.writes
  · rw [data]
    exact serves.agrees

theorem read_fails (used : key ∈ keys) (serves : Serves host keys table (reads + 1) writes caller)
    (keyVec : GuestVec mem key) (result : ResultVec mem) (long : ¬ ((table key).getD []).length < 64) (value : Value)
    (caller' : Caller) : read host keyVec result caller ≠ .ok value caller' := by
  intro returned
  rw [read_eq] at returned
  split at returned
  · rename_i caller'' performed
    obtain ⟨event, completed⟩ := perform_ok host _ performed
    cases completed with
    | get readKey counted memory room fits =>
      obtain rfl := Option.some.inj (readKey.symm.trans keyVec.held)
      have found : (caller.setMemory (some mem)).data.storage.get (host.blake2 _).1 = table _ :=
        serves.agrees _ used
      rw [found] at fits
      exact long fits.1
  · cases returned

end Calls

section Sequences

variable {host : Host} {keys : Set Key} {table : Table Key Value} {reads writes : ℕ} {caller : Caller} {mem : Memory}
  {key : Key}

theorem reads_cons (call : Invocation) (rest : List Invocation) :
    Invocation.reads (call :: rest) = Invocation.reads rest + if call.isRead then 1 else 0 := by
  simp only [Invocation.reads, List.countP_cons]

theorem writes_cons (call : Invocation) (rest : List Invocation) :
    Invocation.writes (call :: rest) = Invocation.writes rest + if call.isRead then 0 else 1 := by
  cases isRead : call.isRead <;> simp [Invocation.writes, isRead]

theorem perform_serves (injective : Set.InjOn host.hashed keys) {call : Invocation} {rest : List Invocation}
    (used : call.key ∈ keys)
    (serves : Serves host keys table (Invocation.reads (call :: rest) + reads)
      (Invocation.writes (call :: rest) + writes) caller) (fits : call.Fits table) :
    ∃ caller', call.perform host caller = .ok () caller' ∧
      Serves host keys (call.apply table) (Invocation.reads rest + reads) (Invocation.writes rest + writes)
        caller' := by
  rw [reads_cons, writes_cons, Nat.add_right_comm, Nat.add_right_comm (Invocation.writes rest)] at serves
  cases call with
  | write key value keyVec valueVec => exact write_serves injective used serves keyVec valueVec
  | read key keyVec result =>
    change key ∈ keys at used
    obtain ⟨caller', returned, still⟩ := read_serves used serves keyVec result fits
    refine ⟨caller', ?_, still⟩
    simp only [Invocation.perform, bind_apply, returned]
    rfl
  | delete key keyVec => exact delete_serves injective used serves keyVec

theorem perform_fails {call : Invocation} {rest : List Invocation} (used : call.key ∈ keys)
    (serves : Serves host keys table (Invocation.reads (call :: rest) + reads) writes caller)
    (unfit : ¬ call.Fits table) (caller' : Caller) : call.perform host caller ≠ .ok () caller' := by
  cases call with
  | write | delete => exact absurd True.intro unfit
  | read key keyVec result =>
    change key ∈ keys at used
    rw [reads_cons, Nat.add_right_comm] at serves
    have failed := read_fails used serves keyVec result unfit
    simp only [Invocation.perform, bind_apply]
    cases returned : Guest.read host keyVec result caller with
    | ok value caller'' => exact absurd returned (failed value caller'')
    | error why caller'' => simp

theorem performAll_cons {call : Invocation} {rest : List Invocation} {caller₁ : Caller}
    (returned : call.perform host caller = .ok () caller₁) :
    Invocation.performAll host (call :: rest) caller = Invocation.performAll host rest caller₁ := by
  simp only [Invocation.performAll, bind_apply, returned]

theorem performAll_serves (injective : Set.InjOn host.hashed keys) {calls : List Invocation}
    (used : ∀ call ∈ calls, call.key ∈ keys)
    (serves : Serves host keys table (Invocation.reads calls + reads) (Invocation.writes calls + writes) caller)
    (fit : Invocation.AllFit table calls) :
    ∃ caller', Invocation.performAll host calls caller = .ok () caller' ∧
      Serves host keys (calls.foldl Invocation.apply table) reads writes caller' := by
  induction calls generalizing table caller with
  | nil =>
    simp only [Invocation.reads, Invocation.writes, List.countP_nil, Nat.zero_add] at serves
    exact ⟨caller, rfl, serves⟩
  | cons call rest ih =>
    obtain ⟨caller₁, returned, served⟩ := perform_serves injective (used call List.mem_cons_self) serves fit.1
    rw [performAll_cons returned]
    exact ih (fun later member => used later (List.mem_cons_of_mem _ member)) served fit.2

theorem performAll_fails (injective : Set.InjOn host.hashed keys) {calls : List Invocation}
    (used : ∀ call ∈ calls, call.key ∈ keys)
    (serves : Serves host keys table (Invocation.reads calls + reads) (Invocation.writes calls + writes) caller)
    (unfit : ¬ Invocation.AllFit table calls) (caller' : Caller) :
    Invocation.performAll host calls caller ≠ .ok () caller' := by
  induction calls generalizing table caller with
  | nil => exact absurd True.intro unfit
  | cons call rest ih =>
    by_cases fits : call.Fits table
    · obtain ⟨caller₁, returned, served⟩ := perform_serves injective (used call List.mem_cons_self) serves fits
      rw [performAll_cons returned]
      exact ih (fun later member => used later (List.mem_cons_of_mem _ member)) served
        fun later => unfit ⟨fits, later⟩
    · have failed := perform_fails (used call List.mem_cons_self) serves fits
      simp only [Invocation.performAll, bind_apply]
      cases returned : call.perform host caller with
      | ok _ caller'' => exact absurd returned (failed caller'')
      | error why caller'' => simp

theorem foldl_apply_other {calls : List Invocation} (others : ∀ call ∈ calls, call.key ≠ key) :
    calls.foldl Invocation.apply table key = table key := by
  induction calls generalizing table with
  | nil => rfl
  | cons call rest ih =>
    have different := (others call List.mem_cons_self).symm
    rw [List.foldl_cons, ih fun later member => others later (List.mem_cons_of_mem _ member)]
    cases call with
    | write key' value => exact Function.update_of_ne different _ _
    | read => rfl
    | delete key' => exact Function.update_of_ne different _ _

theorem thenRead_iff (injective : Set.InjOn host.hashed keys) {calls : List Invocation} (member : key ∈ keys)
    (used : ∀ call ∈ calls, call.key ∈ keys ∧ call.key ≠ key)
    (serves : Serves host keys table (Invocation.reads calls + 1) (Invocation.writes calls) caller)
    (keyVec : GuestVec mem key) (result : ResultVec mem) (value : Value) :
    (∃ caller', thenRead host calls keyVec result caller = .ok value caller') ↔
      Invocation.AllFit table calls ∧ value = (table key).getD [] ∧ value.length < 64 := by
  have inKeys : ∀ call ∈ calls, call.key ∈ keys := fun call called => (used call called).1
  have kept : calls.foldl Invocation.apply table key = table key :=
    foldl_apply_other fun call called => (used call called).2
  change Serves host keys table (Invocation.reads calls + (0 + 1)) (Invocation.writes calls + 0) caller at serves
  by_cases fit : Invocation.AllFit table calls
  · obtain ⟨caller₁, returned, served⟩ := performAll_serves injective inKeys serves fit
    have last : thenRead host calls keyVec result caller = Guest.read host keyVec result caller₁ := by
      simp only [thenRead, bind_apply, returned]
    rw [last]
    by_cases short : ((table key).getD []).length < 64
    · obtain ⟨caller₂, got, -⟩ := read_serves member served keyVec result (kept ▸ short)
      rw [got, kept]
      constructor
      · rintro ⟨caller', same⟩
        cases same
        exact ⟨fit, rfl, short⟩
      · rintro ⟨-, rfl, -⟩
        exact ⟨caller₂, rfl⟩
    · have failed := read_fails member served keyVec result (kept ▸ short)
      refine iff_of_false ?_ fun ⟨_, same, small⟩ => short (same ▸ small)
      rintro ⟨caller', got⟩
      exact failed value caller' got
  · have failed := performAll_fails injective inKeys serves fit
    refine iff_of_false ?_ fun both => fit both.1
    rintro ⟨caller', got⟩
    simp only [thenRead, bind_apply] at got
    split at got
    · rename_i returned
      exact failed _ returned
    · cases got

theorem bind_returns {first : HostM Unit} {rest : HostM Value} {caller₁ : Caller}
    (returned : first caller = .ok () caller₁) : (first >>= fun _ => rest) caller = rest caller₁ := by
  simp only [bind_apply, returned]

/-- The macro's reads undo its writes and deletes exactly where every value read is shorter than 64 bytes:
    the one written, and those that the calls in between read. -/
theorem read_undoes_write_iff (injective : Set.InjOn host.hashed keys) {between : List Invocation}
    (member : key ∈ keys) (used : ∀ call ∈ between, call.key ∈ keys ∧ call.key ≠ key)
    (keyVec : GuestVec mem key) (result : ResultVec mem) (caller : Caller) :
    (∀ (mem₀ : Memory) (value : Value) (keyVec₀ : GuestVec mem₀ key) (valueVec : GuestVec mem₀ value),
        Room caller (Invocation.reads between + 1) (Invocation.writes between + 1) →
        ((∃ caller', (write host keyVec₀ valueVec >>= fun _ => thenRead host between keyVec result) caller =
            .ok value caller') ↔
          value.length < 64 ∧ Invocation.AllFit ((Write.set key value).apply (stored host caller)) between)) ∧
      (∀ (mem₀ : Memory) (keyVec₀ : GuestVec mem₀ key),
        Room caller (Invocation.reads between + 1) (Invocation.writes between + 1) →
        ((∃ caller', (delete host keyVec₀ >>= fun _ => thenRead host between keyVec result) caller =
            .ok [] caller') ↔
          Invocation.AllFit ((Write.remove key).apply (stored host caller)) between)) ∧
      (stored host caller key = none → Room caller (Invocation.reads between + 1) (Invocation.writes between) →
        ((∃ caller', thenRead host between keyVec result caller = .ok [] caller') ↔
          Invocation.AllFit (stored host caller) between)) := by
  refine ⟨fun mem₀ value keyVec₀ valueVec room => ?_, fun mem₀ keyVec₀ room => ?_, fun missing room => ?_⟩
  · have serves : Serves host keys (stored host caller) (Invocation.reads between + 1)
        (Invocation.writes between + 1) caller := ⟨room, fun _ _ => rfl⟩
    obtain ⟨caller₁, wrote, served⟩ := write_serves injective member serves keyVec₀ valueVec
    have held : (Write.set key value).apply (stored host caller) key = some value := Function.update_self _ _ _
    rw [bind_returns wrote, thenRead_iff injective member used served keyVec result value, held, Option.getD_some]
    exact ⟨fun ⟨fit, _, short⟩ => ⟨short, fit⟩, fun ⟨short, fit⟩ => ⟨fit, rfl, short⟩⟩
  · have serves : Serves host keys (stored host caller) (Invocation.reads between + 1)
        (Invocation.writes between + 1) caller := ⟨room, fun _ _ => rfl⟩
    obtain ⟨caller₁, deleted, served⟩ := delete_serves injective member serves keyVec₀
    have held : (Write.remove key).apply (stored host caller) key = none := Function.update_self _ _ _
    rw [bind_returns deleted, thenRead_iff injective member used served keyVec result [], held, Option.getD_none]
    exact ⟨fun both => both.1, fun fit => ⟨fit, rfl, by decide⟩⟩
  · have serves : Serves host keys (stored host caller) (Invocation.reads between + 1)
        (Invocation.writes between) caller := ⟨room, fun _ _ => rfl⟩
    rw [thenRead_iff injective member used serves keyVec result [], missing, Option.getD_none]
    exact ⟨fun both => both.1, fun fit => ⟨fit, rfl, by decide⟩⟩

end Sequences

section Zeros

def emptyKey : GuestVec page [] := ⟨0, 0, rfl⟩

def zeros (len : UInt32) (inside : len ≤ 65536) : GuestVec page (List.replicate len.toNat 0) where
  ptr := 0
  len := len
  held := by
    have bound : len.toNat ≤ 65536 := UInt32.le_iff_toNat_le.mp inside
    have all : page.window 0 len.toNat = List.replicate len.toNat 0 := by
      simp [Memory.window, page, List.map_const']
    have room : (0 : UInt32).toNat + len.toNat ≤ page.size := by simpa [page] using bound
    exact (slice_inside room).trans (congrArg some all)

def freshCaller : Caller := ⟨freshStore 1 1 BTreeMap.empty, none⟩

def markedPage : Memory := ⟨65536, fun i => if i = 65535 then 1 else 0⟩

def oneKey : GuestVec markedPage [1] := ⟨65535, 1, rfl⟩

def bothCalls : List Invocation :=
  [.write [1] [0, 0] oneKey ⟨0, 2, rfl⟩, .read [1] oneKey ⟨0, 100, by decide⟩]

def roomyCaller : Caller := ⟨freshStore 2 2 BTreeMap.empty, none⟩

theorem bothKeys_distinct : Set.InjOn localNode.hashed {[], [1]} := by
  intro key member key' member' same
  simp only [Set.mem_insert_iff, Set.mem_singleton_iff] at member member'
  rcases member with rfl | rfl <;> rcases member' with rfl | rfl <;> revert same <;> decide

/-- Another key is written and read between the write of a key and its read. -/
theorem zeros_round_trip :
    ∃ caller', (write localNode.toHost emptyKey (zeros 63 (by decide)) >>= fun _ =>
        thenRead localNode.toHost bothCalls emptyKey (zeros 100 (by decide))) roomyCaller =
      .ok (List.replicate 63 0) caller' := by
  have used : ∀ call ∈ bothCalls, call.key ∈ ({[], [1]} : Set Key) ∧ call.key ≠ [] := by
    intro call called
    simp only [bothCalls, List.mem_cons, List.not_mem_nil, or_false] at called
    rcases called with rfl | rfl <;> simp [Invocation.key]
  have short : ([0, 0] : Value).length < 64 := by decide
  have readBack := (read_undoes_write_iff bothKeys_distinct (Set.mem_insert [] _) used emptyKey (zeros 100 (by decide))
    roomyCaller).1 page (List.replicate 63 0) emptyKey (zeros 63 (by decide)) ⟨by decide, by decide⟩
  exact readBack.mpr ⟨by decide, True.intro, short, True.intro⟩

/-- A value of 64 bytes encodes to 66, and the host's buffer for it has 65. -/
theorem zeros_lost :
    (encodeVec (List.replicate 64 0)).length ≤ 100 ∧
      ∃ caller', (write localNode.toHost emptyKey (zeros 64 (by decide)) >>= fun _ =>
          thenRead localNode.toHost [] emptyKey (zeros 100 (by decide))) freshCaller =
        .error (.panic .copyLength) caller' :=
  ⟨by decide, _, rfl⟩

end Zeros

end KontractsProof.Guest
