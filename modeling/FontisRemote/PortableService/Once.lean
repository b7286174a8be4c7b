import FontisRemote.PortableService.Launch

/-!
# A token lets one helper in

A token is in one place: with the launch that made it, in the slot that the server compares with, with the handshake
that took it from there, or among the completed ones. What puts it back after an answer that could not be sent is the
handshake that has it.
-/

namespace FontisRemote.PortableService

open FontisRemote.Lib

namespace Client

variable (s : Client)

/-- How often a token is held. -/
def holds (t : Bytes) : Nat :=
  (s.ipcRuntimeToken == some t).toNat + s.launches.countP (fun phase => phase.token == some t) +
    (s.handshake.consumed == some t).toNat + s.completed.count t

/-- A token is held once, from when it was generated. -/
structure Once : Prop where
  held : ∀ t, s.holds t ≤ s.generated.count t
  fresh : ∀ t, s.generated.count t ≤ 1

/-- The random bytes of no two launches are the same. -/
def Fresh : Event → Prop
  | .create _ (some (_, randomBytes, _)) => generateOneTimeIpcToken randomBytes ∉ s.generated
  | _ => True

variable {s} {s' : Client} {i : Nat} {a : Phase} {t : Bytes}

theorem fresh_of_ne {e : Event} (h : ∀ i made, e ≠ .create i made) : s.Fresh e := by
  unfold Fresh
  split
  · next i _ _ _ => exact absurd rfl (h _ _)
  · trivial

theorem holds_setPhase (phase : Phase) (hi : s.launches[i]? = some a) (t : Bytes) :
    (s.setPhase i phase).holds t + (a.token == some t).toNat = s.holds t + (phase.token == some t).toNat := by
  have hcount := countP_set_add (b := phase) (fun phase : Phase => phase.token == some t) hi
  simp only [holds, setPhase] at hcount ⊢
  omega

theorem holds_clear (t : Bytes) : s.clearRuntimeShmemState.holds t ≤ s.holds t := by
  have hnone : ((none : Option Bytes) == some t).toNat = 0 := rfl
  simp only [holds, clearRuntimeShmemState, hnone]
  omega

/-- A step that adds no token to those held. -/
theorem Once.mono (h : s.Once) (hgenerated : s'.generated = s.generated) (hholds : ∀ t, s'.holds t ≤ s.holds t) :
    s'.Once where
  held t := hgenerated ▸ (hholds t).trans (h.held t)
  fresh t := hgenerated ▸ h.fresh t

/-- A launch that goes on, and has no token then. -/
theorem Once.setPhase (h : s.Once) (phase : Phase) (hi : s.launches[i]? = some a) (hphase : phase.token = none) :
    (s.setPhase i phase).Once := by
  refine h.mono rfl fun t => ?_
  have hcount := holds_setPhase phase hi t
  have hnone : ((none : Option Bytes) == some t).toNat = 0 := rfl
  rw [hphase, hnone] at hcount
  omega

theorem Once.clear (h : s.Once) : s.clearRuntimeShmemState.Once := h.mono rfl holds_clear

theorem Once.create (h : s.Once) (hi : s.launches[i]? = some a) {launchToken size : Nat} {name : String}
    {randomBytes : Bytes} (hfresh : generateOneTimeIpcToken randomBytes ∉ s.generated) :
    (s.create i launchToken name randomBytes size).Once := by
  unfold Client.create
  dsimp only
  split
  · generalize generateOneTimeIpcToken randomBytes = token at hfresh ⊢
    have hcount : s.generated.count token = 0 := List.count_eq_zero.2 hfresh
    refine ⟨fun t => ?_, fun t => ?_⟩
    · have hholds := holds_setPhase (.created launchToken token) hi t
      have hheld := h.held t
      rw [List.count_cons]
      change (s.setPhase i (.created launchToken token)).holds t ≤ _
      by_cases ht : token = t
      · subst ht
        have hone : ((Phase.created launchToken token).token == some token).toNat ≤ 1 := Bool.toNat_le _
        simp only [beq_self_eq_true, if_true]
        omega
      · have hzero : ((Phase.created launchToken token).token == some t).toNat = 0 := by
          simpa [Phase.token] using ht
        omega
    · rw [List.count_cons]
      by_cases ht : token = t
      · subst ht
        simp only [beq_self_eq_true, if_true]
        omega
      · have hfresh' := h.fresh t
        simp only [beq_iff_eq, ht, if_false]
        omega
  · exact h.clear.setPhase _ hi rfl

theorem Once.set (h : s.Once) {launchToken : Nat} {token : Bytes} (hi : s.launches[i]? = some (.created launchToken token)) :
    ({ s.setPhase i (.ready launchToken) with ipcRuntimeToken := some token } : Client).Once := by
  refine h.mono rfl fun t => ?_
  have hcount := holds_setPhase (.ready launchToken) hi t
  have hready : ((Phase.ready launchToken).token == some t).toNat = 0 := rfl
  simp only [holds, Phase.token] at hcount hready ⊢
  simp only [Client.setPhase] at hcount ⊢
  omega

/-- The token goes from the slot to the handshake. -/
theorem Once.token (h : s.Once) (hwaiting : s.handshake = .waiting) (candidate : Bytes) :
    ({ (s.consumeRuntimeIpcTokenIfMatch candidate).2 with
      handshake := .answering (s.consumeRuntimeIpcTokenIfMatch candidate).1 } : Client).Once := by
  unfold consumeRuntimeIpcTokenIfMatch
  split
  · next hmatch =>
    obtain ⟨expected, hslot, heq⟩ := (Option.any_eq_true _ _).1 hmatch
    obtain ⟨rfl, -⟩ := constantTimeIpcTokenEq_iff.1 heq
    refine h.mono rfl fun t => ?_
    simp only [holds, hslot, hwaiting, Handshake.consumed, Option.map_some]
    have hnone : ((none : Option Bytes) == some t).toNat = 0 := rfl
    omega
  · refine h.mono rfl fun t => ?_
    simp only [holds, hwaiting, Handshake.consumed, Option.map_none]
    omega

/-- And from there back, or nowhere. -/
theorem Once.restore (h : s.Once) {token : Bytes} {name : Option String} (hrestoring : s.handshake = .restoring token name) :
    ({ s.restoreRuntimeIpcToken token name with handshake := .resetting } : Client).Once := by
  have hnone : ∀ t, ((none : Option Bytes) == some t).toNat = 0 := fun _ => rfl
  have hdrop : ∀ t, ((if s.ipcRuntimeToken == some token then none else s.ipcRuntimeToken) == some t).toNat ≤
      (s.ipcRuntimeToken == some t).toNat := by
    intro t
    split
    · exact (hnone t).symm ▸ Nat.zero_le _
    · exact le_rfl
  unfold restoreRuntimeIpcToken
  split
  · refine h.mono rfl fun t => ?_
    simp only [holds, Handshake.consumed, hnone]
    omega
  · split
    · refine h.mono rfl fun t => ?_
      have hle := hdrop t
      simp only [holds, Handshake.consumed, hnone]
      omega
    · split
      · refine h.mono rfl fun t => ?_
        simp only [holds, hrestoring, Handshake.consumed, hnone]
        omega
      · refine h.mono rfl fun t => ?_
        have hle := hdrop t
        simp only [holds, Handshake.consumed, hnone]
        omega

theorem Once.step {e : Event} (h : s.Once) (hfresh : s.Fresh e) (hstep : s.step e = some s') : s'.Once := by
  have hsame : ∀ r : Client, r.generated = s.generated → (∀ t, r.holds t = s.holds t) → r.Once := fun r hgenerated hholds =>
    h.mono hgenerated fun t => (hholds t).le
  cases e with
  | ask =>
    obtain rfl := Option.some.inj hstep
    refine hsame _ rfl fun t => ?_
    have hnone : ((none : Option Bytes) == some t) = false := rfl
    simp [holds, Phase.token, hnone]
  | begin_ i hasProcess =>
    unfold Client.step at hstep
    dsimp only at hstep
    split at hstep
    · next running hi =>
      split at hstep
      · exact Option.some.inj hstep ▸ (h.setPhase .ended hi rfl).mono rfl fun t => le_rfl
      · exact Option.some.inj hstep ▸ (h.setPhase (.began (s.startingToken + 1)) hi rfl).mono rfl fun t => le_rfl
    · cases hstep
  | clear i =>
    unfold Client.step at hstep
    dsimp only at hstep
    split at hstep
    · next launchToken hi => exact Option.some.inj hstep ▸ h.clear.setPhase _ hi rfl
    · cases hstep
  | create i made =>
    unfold Client.step at hstep
    dsimp only at hstep
    split at hstep
    · next launchToken hi =>
      cases made with
      | none => exact Option.some.inj hstep ▸ h.setPhase _ hi rfl
      | some made =>
        obtain ⟨name, randomBytes, size⟩ := made
        dsimp only at hstep
        split at hstep
        · exact Option.some.inj hstep ▸ h.create hi hfresh
        · cases hstep
    · cases hstep
  | set i =>
    unfold Client.step at hstep
    dsimp only at hstep
    split at hstep
    · next launchToken token hi => exact Option.some.inj hstep ▸ h.set hi
    · cases hstep
  | run i ran =>
    unfold Client.step at hstep
    dsimp only at hstep
    split at hstep
    · next launchToken hi =>
      cases ran with
      | started => exact Option.some.inj hstep ▸ (h.setPhase .ended hi rfl).mono rfl fun t => le_rfl
      | failed => exact Option.some.inj hstep ▸ h.clear.setPhase _ hi rfl
      | noExe => exact Option.some.inj hstep ▸ h.setPhase _ hi rfl
    · cases hstep
  | fail i =>
    unfold Client.step at hstep
    dsimp only at hstep
    split at hstep
    · next hi => exact Option.some.inj hstep ▸ (h.setPhase .ended hi rfl).mono rfl fun t => le_rfl
    · cases hstep
  | wake k =>
    unfold Client.step at hstep
    dsimp only at hstep
    split at hstep
    · exact Option.some.inj hstep ▸ hsame _ rfl fun t => rfl
    · exact Option.some.inj hstep ▸ hsame _ rfl fun t => rfl
    · exact Option.some.inj hstep ▸ hsame _ rfl fun t => rfl
    · cases hstep
  | reset k =>
    unfold Client.step at hstep
    dsimp only at hstep
    split at hstep
    · exact Option.some.inj hstep ▸ hsame _ rfl fun t => rfl
    · cases hstep
  | accept =>
    unfold Client.step at hstep
    dsimp only at hstep
    split at hstep
    · next hidle =>
      refine Option.some.inj hstep ▸ hsame _ rfl fun t => ?_
      simp only [holds, hidle, Handshake.consumed]
    · cases hstep
  | token candidate =>
    unfold Client.step at hstep
    dsimp only at hstep
    split at hstep
    · next hwaiting =>
      cases candidate with
      | none =>
        refine Option.some.inj hstep ▸ hsame _ rfl fun t => ?_
        simp only [holds, hwaiting, Handshake.consumed, Option.map_none]
      | some candidate => exact Option.some.inj hstep ▸ h.token hwaiting candidate
    · cases hstep
  | answer sent =>
    unfold Client.step at hstep
    dsimp only at hstep
    split at hstep
    · next hanswering =>
      refine Option.some.inj hstep ▸ hsame _ rfl fun t => ?_
      simp only [holds, hanswering, Handshake.consumed, Option.map_none]
    · next token name hanswering =>
      split at hstep
      · refine Option.some.inj hstep ▸ h.mono rfl fun t => ?_
        have hcount : (token == t).toNat = if token == t then 1 else 0 := by cases token == t <;> rfl
        have hsome : (some token == some t) = (token == t) := rfl
        have hnone : ((none : Option Bytes) == some t).toNat = 0 := rfl
        simp only [holds, hanswering, Handshake.consumed, Option.map_some, List.count_cons, hnone, hsome]
        omega
      · refine Option.some.inj hstep ▸ hsame _ rfl fun t => ?_
        simp only [holds, hanswering, Handshake.consumed, Option.map_some]
    · cases hstep
  | restore =>
    unfold Client.step at hstep
    dsimp only at hstep
    split at hstep
    · next token name hrestoring => exact Option.some.inj hstep ▸ h.restore hrestoring
    · cases hstep
  | resetStarting =>
    unfold Client.step at hstep
    dsimp only at hstep
    split at hstep
    · next hresetting =>
      refine Option.some.inj hstep ▸ hsame _ rfl fun t => ?_
      simp only [holds, hresetting, Handshake.consumed]
    · cases hstep
  | pong =>
    unfold Client.step at hstep
    dsimp only at hstep
    split at hstep
    · exact Option.some.inj hstep ▸ hsame _ rfl fun t => rfl
    · cases hstep
  | close =>
    unfold Client.step at hstep
    dsimp only at hstep
    split at hstep
    · exact Option.some.inj hstep ▸ hsame _ rfl fun t => rfl
    · cases hstep
  | closed =>
    unfold Client.step at hstep
    dsimp only at hstep
    split at hstep
    · exact Option.some.inj hstep ▸ hsame _ rfl fun t => rfl
    · cases hstep
  | exitHook => exact Option.some.inj hstep ▸ h.clear

theorem Once.init : ({} : Client).Once where
  held _ := Nat.zero_le _
  fresh _ := Nat.zero_le _

end Client

/-- In every run in which no random bytes come up twice, whatever launches, handshakes, failed answers, watchdogs and
exits overlap: no token lets two helpers in, each that lets one in was made for a launch, and the server does not take
it again. -/
theorem token_once {history : List (Client × Event)} {s : Client} (hrun : Exec (· = {}) Client.step history s)
    (hfresh : ∀ p ∈ history, p.1.Fresh p.2) :
    s.completed.Nodup ∧ s.completed ⊆ s.generated ∧
      ∀ token ∈ s.completed, ∀ candidate, (s.consumeRuntimeIpcTokenIfMatch candidate).1.map Prod.fst ≠ some token := by
  have honce : s.Once := by
    refine hrun.invariant_of (G := Client.Fresh) ?_ (fun _ _ _ hi hg hs => hi.step hg hs) hfresh
    rintro s rfl
    exact .init
  have hle : ∀ token, s.completed.count token ≤ s.generated.count token := by
    intro token
    have hheld := honce.held token
    unfold Client.holds at hheld
    omega
  refine ⟨List.nodup_iff_count_le_one.2 fun token => (hle token).trans (honce.fresh token), fun token hmem => ?_,
    fun token hmem candidate hconsumed => ?_⟩
  · exact List.count_pos_iff.1 ((List.count_pos_iff.2 hmem).trans_le (hle token))
  · unfold Client.consumeRuntimeIpcTokenIfMatch at hconsumed
    split at hconsumed
    · next hmatch =>
      obtain ⟨expected, hslot, heq⟩ := (Option.any_eq_true _ _).1 hmatch
      obtain ⟨rfl, -⟩ := constantTimeIpcTokenEq_iff.1 heq
      obtain rfl := Option.some.inj hconsumed
      have hheld := honce.held expected
      have hcompleted : 0 < s.completed.count expected := List.count_pos_iff.2 hmem
      have hfresh := honce.fresh expected
      simp only [Client.holds, hslot, beq_self_eq_true, Bool.toNat_true] at hheld
      omega
    · cases hconsumed

/-! ## A launch whose helper has to ask twice -/

def exampleToken : Bytes := generateOneTimeIpcToken (List.replicate IPC_TOKEN_RANDOM_BYTES 0xa5)

def exampleCreate : Event :=
  .create 0 (some ("shm", List.replicate IPC_TOKEN_RANDOM_BYTES 0xa5, IPC_TOKEN_LEN))

/-- Before the memory is made. -/
def exampleCleared : Client where
  starting := true
  startingToken := 1
  launches := [.cleared 1]

def exampleCreated : Client where
  starting := true
  startingToken := 1
  shmem := some exampleToken
  shmemRuntimeName := some "shm"
  launches := [.created 1 exampleToken]
  generated := [exampleToken]
  names := ["shm"]

def exampleLetIn : Client where
  startingToken := 1
  shmem := some (List.replicate IPC_TOKEN_LEN 0)
  shmemRuntimeName := some "shm"
  launches := [.ended]
  watchdogs := [.sleeping 1]
  conns := 1
  generated := [exampleToken]
  names := ["shm"]
  completed := [exampleToken]

/-- The first answer cannot be sent, so that the helper is let in with the second. -/
theorem token_once_again : ∃ history, Exec (· = {}) Client.step history exampleLetIn ∧
    (∀ p ∈ history, p.1.Fresh p.2) ∧ exampleLetIn.completed.Nodup ∧
      (exampleLetIn.consumeRuntimeIpcTokenIfMatch exampleToken).1.map Prod.fst ≠ some exampleToken := by
  obtain ⟨before, hbefore⟩ : ∃ before, trace Client.step {} [.ask, .begin_ 0 true, .clear 0] =
      some (before, exampleCleared) := ⟨_, rfl⟩
  obtain ⟨after, hafter⟩ : ∃ after, trace Client.step exampleCreated
      [.set 0, .run 0 .started, .accept, .token (some exampleToken), .answer false, .restore, .resetStarting, .accept,
        .token (some exampleToken), .answer true] = some (after, exampleLetIn) := ⟨_, rfl⟩
  have hstart : Exec (· = ({} : Client)) Client.step [] {} := .start rfl
  have hcleared : Exec (· = ({} : Client)) Client.step (before ++ []) exampleCleared := hstart.trace hbefore
  have hcreated : Exec (· = ({} : Client)) Client.step _ exampleCreated :=
    hcleared.snoc (e := exampleCreate) rfl
  have hrun := hcreated.trace hafter
  have hquiet : ∀ {es : List Event} {s : Client} {r}, trace Client.step s es = some r →
      (∀ e ∈ es, ∀ i made, e ≠ .create i made) → ∀ p ∈ r.1, p.1.Fresh p.2 := fun hr hes p hp =>
    Client.fresh_of_ne (hes _ (trace_events hr p hp))
  have hfresh : ∀ p ∈ after ++ (exampleCleared, exampleCreate) :: (before ++ []), p.1.Fresh p.2 := by
    intro p hp
    rcases List.mem_append.1 hp with hp | hp
    · exact hquiet hafter (by simp) p hp
    · rcases List.mem_cons.1 hp with rfl | hp
      · exact List.not_mem_nil
      · rw [List.append_nil] at hp
        exact hquiet hbefore (by simp) p hp
  obtain ⟨hnodup, -, hagain⟩ := token_once hrun hfresh
  exact ⟨_, hrun, hfresh, hnodup, hagain exampleToken List.mem_cons_self exampleToken⟩

end FontisRemote.PortableService
