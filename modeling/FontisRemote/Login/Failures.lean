import Mathlib.Algebra.Order.Ring.Int
import Mathlib.Logic.Function.Basic
import Mathlib.Data.List.Nodup

/-!
# Counting failed logins

`LOGIN_FAILURES` of `src/server/connection.rs`: `bump_failure_entry`, `update_failure_with_scope` and
`check_failure_with_scope` for the default scope. A failure is counted under the address it came from
and, for IPv6, under the /64, /56 and /48 it lies in; each key has a limit of its own.

The maps are keyed by strings in the source (`Ipv6Addr` texts, with `"/64"` and so on appended for a
prefix). Here a key is the address or the masked prefix itself. Counters are `i32` there and natural
numbers here; `Guessing` bounds them.
-/

namespace FontisRemote.Login

inductive Address where
  | v4 (bits : BitVec 32)
  | v6 (bits : BitVec 128)
  deriving DecidableEq, Repr

/-- A key of the failure maps. -/
inductive FailureKey where
  | ip (a : Address)
  | net (length : Nat) (masked : BitVec 128)
  deriving DecidableEq, Repr

def maskU128 (addr : BitVec 128) (length : Nat) : BitVec 128 :=
  let mask := if length = 0 ∨ 128 < length then 0 else BitVec.allOnes 128 <<< (128 - length)
  addr &&& mask

/-- `get_ipv6_prefixes`. -/
def getIpv6Prefixes : Address → Option (FailureKey × FailureKey × FailureKey)
  | .v4 _ => none
  | .v6 b => some (.net 64 (maskU128 b 64), .net 56 (maskU128 b 56), .net 48 (maskU128 b 48))

/-- The minute of the last failure, the failures in that minute, and all of them. -/
structure FailureEntry where
  minute : Int
  inMinute : Nat
  total : Nat
  deriving DecidableEq, Repr

namespace FailureEntry

/-- `(0, 0, 0)`, what an absent key reads as. -/
def zero : FailureEntry := ⟨0, 0, 0⟩

end FailureEntry

def bumpFailureEntry (cur : FailureEntry) (time : Int) : FailureEntry :=
  if cur.minute = time then ⟨cur.minute, cur.inMinute + 1, cur.total + 1⟩
  else ⟨time, 1, cur.total + 1⟩

abbrev FailureMap := FailureKey → Option FailureEntry

namespace FailureMap

def empty : FailureMap := fun _ => none

/-- `get(key).copied().unwrap_or((0, 0, 0))`. -/
def read (m : FailureMap) (k : FailureKey) : FailureEntry := (m k).getD .zero

def insert (m : FailureMap) (k : FailureKey) (e : FailureEntry) : FailureMap :=
  Function.update m k (some e)

def remove (m : FailureMap) (k : FailureKey) : FailureMap := Function.update m k none

def bump (m : FailureMap) (time : Int) (k : FailureKey) : FailureMap :=
  m.insert k (bumpFailureEntry (m.read k) time)

end FailureMap

/-- `update_failure_with_scope` for the default scope. `failure` and `time` are what the check
returned; `remove` is a success, which clears the keys only if the address had an entry then. -/
def updateFailure (m : FailureMap) (ip : Address) (failure : FailureEntry) (time : Int)
    (remove : Bool) : FailureMap :=
  if remove then
    if failure.minute ≠ 0 then
      match getIpv6Prefixes ip with
      | some (p64, p56, p48) => (((m.remove p64).remove p56).remove p48).remove (.ip ip)
      | none => m.remove (.ip ip)
    else m
  else
    match getIpv6Prefixes ip with
    | some (p64, p56, p48) =>
      (((m.bump time p64).bump time p56).bump time p48).bump time (.ip ip)
    | none => m.bump time (.ip ip)

inductive AlarmAuditType where
  | exceedIPv6PrefixAttempts
  | exceedThirtyAttempts
  | sixAttemptsWithinOneMinute
  deriving DecidableEq, Repr

/-- A check that says no: the login error sent and the alarm posted. -/
structure Refusal where
  message : String
  alarm : AlarmAuditType
  deriving DecidableEq, Repr

/-- What a check returns: the snapshot, and the refusal if there is one. -/
structure Checked where
  failure : FailureEntry
  time : Int
  refusal : Option Refusal
  deriving DecidableEq, Repr

/-- `check_failure_ipv6_prefix`. -/
def checkFailureIpv6Prefix (m : FailureMap) (time : Int) (p : FailureKey) (prefixNum : Nat)
    (thresh : Nat) : Option Checked :=
  if thresh < (m.read p).total then
    some ⟨m.read p, time, some ⟨s!"Too many wrong attempts for IPv6 prefix /{prefixNum}",
      .exceedIPv6PrefixAttempts⟩⟩
  else none

/-- The check of the address itself, IPv4 and IPv6 alike. -/
def checkFailureDirect (m : FailureMap) (ip : Address) (time : Int) : Checked :=
  let failure := m.read (.ip ip)
  if 30 < failure.total then
    ⟨failure, time, some ⟨"Too many wrong attempts", .exceedThirtyAttempts⟩⟩
  else if time = failure.minute ∧ 6 < failure.inMinute then
    ⟨failure, time, some ⟨"Please try 1 minute later", .sixAttemptsWithinOneMinute⟩⟩
  else ⟨failure, time, none⟩

/-- `check_failure_with_scope` for the default scope. IPv6 addresses are cheap to make, so their
prefixes are checked first. -/
def checkFailure (m : FailureMap) (ip : Address) (time : Int) : Checked :=
  match getIpv6Prefixes ip with
  | none => checkFailureDirect m ip time
  | some (p64, p56, p48) =>
    match checkFailureIpv6Prefix m time p64 64 60 with
    | some res => res
    | none =>
      match checkFailureIpv6Prefix m time p56 56 80 with
      | some res => res
      | none =>
        match checkFailureIpv6Prefix m time p48 48 100 with
        | some res => res
        | none => checkFailureDirect m ip time

/-! ## What they do, key by key -/

/-- The keys a failure of an address is counted under. -/
def failureKeys (ip : Address) : List FailureKey :=
  match getIpv6Prefixes ip with
  | some (p64, p56, p48) => [.ip ip, p64, p56, p48]
  | none => [.ip ip]

/-- The total a key may reach before its addresses are refused. -/
def keyLimit : FailureKey → Nat
  | .ip _ => 30
  | .net length _ => if length = 64 then 60 else if length = 56 then 80 else 100

namespace FailureMap

@[simp] theorem read_remove (m : FailureMap) (k j : FailureKey) :
    (m.remove k).read j = if j = k then .zero else m.read j := by
  unfold read remove
  by_cases h : j = k
  · subst h
    simp
  · simp [h]

@[simp] theorem read_bump (m : FailureMap) (time : Int) (k j : FailureKey) :
    (m.bump time k).read j = if j = k then bumpFailureEntry (m.read k) time else m.read j := by
  by_cases h : j = k
  · subst h
    simp [read, bump, insert]
  · simp [read, bump, insert, h]

end FailureMap

theorem bumpFailureEntry_total (cur : FailureEntry) (time : Int) :
    (bumpFailureEntry cur time).total = cur.total + 1 := by
  unfold bumpFailureEntry
  split <;> rfl

theorem bumpFailureEntry_inMinute {cur : FailureEntry} (time : Int) (h : cur.inMinute ≤ cur.total) :
    (bumpFailureEntry cur time).inMinute ≤ (bumpFailureEntry cur time).total := by
  unfold bumpFailureEntry
  split
  · simp
    omega
  · simp

/-- A failure counts once under each of its keys and under no other. -/
theorem updateFailure_bump (m : FailureMap) (ip : Address) (failure : FailureEntry) (time : Int)
    (k : FailureKey) :
    (updateFailure m ip failure time false).read k =
      if k ∈ failureKeys ip then bumpFailureEntry (m.read k) time else m.read k := by
  cases ip with
  | v4 b =>
    by_cases h1 : k = .ip (.v4 b)
    · subst h1
      simp [updateFailure, getIpv6Prefixes, failureKeys]
    · simp [updateFailure, getIpv6Prefixes, failureKeys, h1]
  | v6 b =>
    simp only [updateFailure, getIpv6Prefixes, failureKeys, FailureMap.read_bump, Bool.false_eq_true,
      if_false, List.mem_cons, List.not_mem_nil, or_false]
    by_cases h1 : k = .ip (.v6 b)
    · subst h1
      simp
    · by_cases h2 : k = .net 48 (maskU128 b 48)
      · subst h2
        simp
      · by_cases h3 : k = .net 56 (maskU128 b 56)
        · subst h3
          simp
        · by_cases h4 : k = .net 64 (maskU128 b 64)
          · subst h4
            simp
          · simp [h1, h2, h3, h4]

/-- A success clears all its keys, if its own address had failed when it was checked. -/
theorem updateFailure_remove (m : FailureMap) (ip : Address) (failure : FailureEntry) (time : Int)
    (k : FailureKey) :
    (updateFailure m ip failure time true).read k =
      if failure.minute ≠ 0 ∧ k ∈ failureKeys ip then .zero else m.read k := by
  by_cases hm : failure.minute = 0
  · simp [updateFailure, hm]
  · cases ip with
    | v4 b => simp [updateFailure, getIpv6Prefixes, failureKeys, hm]
    | v6 b =>
      simp only [updateFailure, getIpv6Prefixes, failureKeys, FailureMap.read_remove, if_true, ne_eq,
        hm, not_false_eq_true, true_and, List.mem_cons, List.not_mem_nil, or_false]
      by_cases h1 : k = .ip (.v6 b) <;> by_cases h2 : k = .net 48 (maskU128 b 48) <;>
        by_cases h3 : k = .net 56 (maskU128 b 56) <;>
        by_cases h4 : k = .net 64 (maskU128 b 64) <;> simp_all

theorem checkFailureIpv6Prefix_none {m : FailureMap} {time : Int} {p : FailureKey}
    {prefixNum thresh : Nat} (h : checkFailureIpv6Prefix m time p prefixNum thresh = none) :
    (m.read p).total ≤ thresh := by
  unfold checkFailureIpv6Prefix at h
  split at h
  · cases h
  · omega

theorem checkFailureIpv6Prefix_some {m : FailureMap} {time : Int} {p : FailureKey}
    {prefixNum thresh : Nat} {res : Checked}
    (h : checkFailureIpv6Prefix m time p prefixNum thresh = some res) : res.refusal ≠ none := by
  unfold checkFailureIpv6Prefix at h
  split at h
  · cases h
    simp
  · cases h

theorem checkFailureDirect_pass {m : FailureMap} {ip : Address} {time : Int}
    (h : (checkFailureDirect m ip time).refusal = none) : (m.read (.ip ip)).total ≤ 30 := by
  unfold checkFailureDirect at h
  simp only at h
  split at h
  · cases h
  · omega

/-- A check that passes found every key of the address within its limit. -/
theorem checkFailure_pass {m : FailureMap} {ip : Address} {time : Int}
    (h : (checkFailure m ip time).refusal = none) :
    ∀ k ∈ failureKeys ip, (m.read k).total ≤ keyLimit k := by
  intro k hk
  cases ip with
  | v4 b =>
    simp only [failureKeys, getIpv6Prefixes, List.mem_singleton] at hk
    subst hk
    exact checkFailureDirect_pass h
  | v6 b =>
    unfold checkFailure at h
    simp only [failureKeys, getIpv6Prefixes] at h hk
    split at h
    · next res hres => exact absurd h (checkFailureIpv6Prefix_some hres)
    next h64 =>
    split at h
    · next res hres => exact absurd h (checkFailureIpv6Prefix_some hres)
    next h56 =>
    split at h
    · next res hres => exact absurd h (checkFailureIpv6Prefix_some hres)
    next h48 =>
    simp only [List.mem_cons, List.not_mem_nil, or_false] at hk
    rcases hk with rfl | rfl | rfl | rfl
    · exact checkFailureDirect_pass h
    · exact checkFailureIpv6Prefix_none h64
    · exact checkFailureIpv6Prefix_none h56
    · exact checkFailureIpv6Prefix_none h48

end FontisRemote.Login
