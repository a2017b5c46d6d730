import Kontracts.Executor.RawKeys

namespace KontractsModel.Executor

open KeyValue Scale

def digestWrites (host : Host) (events : List HostEvent) : List (Write Bytes Value) :=
  (writesOf events).map (Write.rename host.hashed)

def writtenStorage (host : Host) (storage : KontractStorage) (events : List HostEvent) : KontractStorage :=
  (writesOf events).foldl (Write.applyTo host.hashed) storage

/-- Host calls that differ in the order of calls on different digests, in writes that a later write to
    the same digest makes invisible, and in reads. -/
inductive Rearranged (host : Host) : List HostEvent → List HostEvent → Prop
  | refl (events : List HostEvent) : Rearranged host events events
  | symm {left right : List HostEvent} : Rearranged host left right → Rearranged host right left
  | trans {left middle right : List HostEvent} :
      Rearranged host left middle → Rearranged host middle right → Rearranged host left right
  | swap (front back : List HostEvent) {first second : HostEvent}
      (apart : host.hashed first.key ≠ host.hashed second.key) :
      Rearranged host (front ++ first :: second :: back) (front ++ second :: first :: back)
  | overwritten (front between back : List HostEvent) {earlier later : HostEvent}
      (wrote : earlier.write ≠ none) (rewrote : later.write ≠ none)
      (same : host.hashed later.key = host.hashed earlier.key) :
      Rearranged host (front ++ earlier :: between ++ later :: back) (front ++ between ++ later :: back)
  | read (front back : List HostEvent) {event : HostEvent} (reads : event.write = none) :
      Rearranged host (front ++ event :: back) (front ++ back)

end KontractsModel.Executor

namespace KontractsProof.Executor

open Scale KeyValue KontractsModel.Executor

section Writes

variable {host : Host}

theorem digestWrites_append (front back : List HostEvent) :
    digestWrites host (front ++ back) = digestWrites host front ++ digestWrites host back := by
  simp only [digestWrites, writesOf_append, List.map_append]

theorem digestWrites_read {event : HostEvent} (reads : event.write = none) (rest : List HostEvent) :
    digestWrites host (event :: rest) = digestWrites host rest := by
  simp only [digestWrites, writesOf, List.filterMap_cons_none reads]

theorem digestWrites_skip (host : Host) {event : HostEvent} (reads : event.write = none) (front back : List HostEvent) :
    digestWrites host (front ++ event :: back) = digestWrites host (front ++ back) := by
  rw [digestWrites_append, digestWrites_append, digestWrites_read reads]

theorem digestWrites_write (host : Host) {event : HostEvent} (wrote : event.write ≠ none) :
    ∃ write, write.key = host.hashed event.key ∧
      ∀ rest, digestWrites host (event :: rest) = write :: digestWrites host rest := by
  cases event with
  | set key value => exact ⟨.set (host.hashed key) value, rfl, fun _ => rfl⟩
  | remove key => exact ⟨.remove (host.hashed key), rfl, fun _ => rfl⟩
  | get => exact absurd rfl wrote

theorem digestWrites_only_reads {events : List HostEvent} (reads : ∀ event ∈ events, event.write = none) :
    digestWrites host events = [] := by
  induction events with
  | nil => rfl
  | cons head tail ih =>
    rw [digestWrites_read (reads head List.mem_cons_self)]
    exact ih fun event member => reads event (List.mem_cons_of_mem _ member)

theorem rearranged_replay {left right : List HostEvent} (rearranged : Rearranged host left right)
    (table : Table Bytes Value) : replay table (digestWrites host left) = replay table (digestWrites host right) := by
  induction rearranged with
  | refl events => rfl
  | symm _ ih => exact ih.symm
  | trans _ _ first second => exact first.trans second
  | @swap front back first second apart =>
    by_cases firstReads : first.write = none
    · have moved := digestWrites_skip host firstReads (front ++ [second]) back
      rw [List.append_cons front second, moved, digestWrites_skip host firstReads, ← List.append_cons]
    by_cases secondReads : second.write = none
    · have moved := digestWrites_skip host secondReads (front ++ [first]) back
      rw [List.append_cons front first, moved, digestWrites_skip host secondReads, ← List.append_cons]
    obtain ⟨write, hashed, single⟩ := digestWrites_write host firstReads
    obtain ⟨write', hashed', single'⟩ := digestWrites_write host secondReads
    rw [← hashed, ← hashed'] at apart
    simp only [digestWrites_append, single, single', replay_append, replay_cons, Write.apply_comm apart]
  | @overwritten front between back earlier later wrote rewrote same =>
    obtain ⟨write, hashed, single⟩ := digestWrites_write host wrote
    obtain ⟨write', hashed', single'⟩ := digestWrites_write host rewrote
    rw [← hashed, ← hashed'] at same
    have absorbed := replay_overwritten same (replay table (digestWrites host front)) (digestWrites host between)
    simp only [replay_append, replay_cons, replay_nil] at absorbed
    simp only [List.append_assoc, List.cons_append, digestWrites_append, single, single', replay_append, replay_cons,
      absorbed]
  | @read front back event reads =>
    rw [digestWrites_skip host reads]

end Writes

section Calls

variable {host : Host}

theorem Completed.replays {caller caller' : Caller} {call : HostCall} {event : HostEvent}
    (completed : Completed host caller call event caller') :
    caller'.data.storage.get = replay caller.data.storage.get (digestWrites host [event]) := by
  cases completed with
  | @set _ _ _ _ _ key value =>
    exact Write.applyTo_replays host.hashed caller.data.storage (.set key value)
  | get => rfl
  | @remove _ _ _ key => exact Write.applyTo_replays host.hashed caller.data.storage (.remove key)

theorem replays_tracked (initial : KontractStorage) :
    Tracked host (fun _ events caller => caller.data.storage.get = replay initial.get (digestWrites host events)) where
  memory _ _ _ _ holds := holds
  burned _ _ _ holds := holds
  called _ events _ _ _ _ completed holds := by
    rw [digestWrites_append, replay_append, ← holds]
    exact completed.replays

theorem Completed.writes {caller caller' : Caller} {call : HostCall} {event : HostEvent}
    (completed : Completed host caller call event caller') :
    caller'.data.storage = writtenStorage host caller.data.storage [event] := by
  cases completed <;> rfl

theorem written_tracked (initial : KontractStorage) :
    Tracked host (fun _ events caller => caller.data.storage = writtenStorage host initial events) where
  memory _ _ _ _ holds := holds
  burned _ _ _ holds := holds
  called _ events _ _ _ _ completed holds := by
    rw [completed.writes, holds]
    simp only [writtenStorage, writesOf_append, List.foldl_append]

def Digested (storage : KontractStorage) : Prop := ∀ key value, storage.get key = some value → key.length = 32

theorem digested_tracked : Tracked host (fun _ _ caller => Digested caller.data.storage) where
  memory _ _ _ _ holds := holds
  burned _ _ _ holds := holds
  called _ _ caller _ event caller' completed holds key value present := by
    rw [completed.replays] at present
    by_cases wrote : event.write = none
    · rw [digestWrites_read wrote] at present
      exact holds key value present
    · obtain ⟨write, hashed, single⟩ := digestWrites_write host wrote
      rw [single, replay_cons] at present
      change write.apply _ key = some value at present
      rw [Write.apply_get] at present
      split at present
      · rename_i same
        rw [same, hashed]
        exact (host.blake2 event.key).2
      · exact holds key value present

end Calls

end KontractsProof.Executor
