import FontisRemote.PortableService.Once

/-!
# The helper reads what the server takes

Where launches do not overlap, and nothing clears the memory in the middle of one, the token at the front of the memory
is the one in the slot: taken from both when a helper shows it, and put back to both when that helper could not be told.
The name of the memory tells an earlier one from the one there is now.
-/

namespace FontisRemote.PortableService

open FontisRemote.Lib

theorem valid_of_read {mem token : Bytes} (h : readIpcTokenFromShmem mem = some token) :
    isValidPortableServiceIpcToken token = true := by
  unfold readIpcTokenFromShmem at h
  dsimp only at h
  split at h
  · cases h
  · split at h
    · cases h
    · split at h
      · next hvalid => exact Option.some.inj h ▸ hvalid
      · cases h

/-- Between the reset of the last launch's state and the end. -/
def Phase.inProgress : Phase → Bool
  | .began _ | .cleared _ | .created _ _ | .ready _ => true
  | _ => false

def Handshake.holds : Handshake → Option (Bytes × Option String)
  | .answering consumed => consumed
  | .restoring token name => some (token, name)
  | _ => none

namespace Client

variable (s : Client)

/-- The token that a helper reads. -/
def readable : Option Bytes := s.shmem.bind readIpcTokenFromShmem

/-- The call finds no helper starting or running, and goes on. -/
def goesOn (i : Nat) (hasProcess : Bool) : Bool :=
  match s.launches[i]? with
  | some (.asked running) => !(s.starting && !(!running && !hasProcess) || running)
  | _ => false

/-- No launch begins, and nothing clears the memory at an exit, while a launch is in progress; no name comes up twice. -/
def Apart : Event → Prop
  | .begin_ i hasProcess => s.goesOn i hasProcess = true → ∀ phase ∈ s.launches, phase.inProgress = false
  | .exitHook => ∀ phase ∈ s.launches, phase.inProgress = false
  | .create _ (some (name, _, _)) => name ∉ s.names
  | _ => True

/-- What a launch that has come this far has made of the state. -/
def Stage (s : Client) : Phase → Prop
  | .cleared _ => s.shmem = none ∧ s.shmemRuntimeName = none ∧ s.ipcRuntimeToken = none
  | .created _ token => s.readable = some token ∧ s.ipcRuntimeToken = none ∧
      ∀ token' name, s.handshake.holds = some (token', name) → name ≠ s.shmemRuntimeName
  | _ => s.readable = s.ipcRuntimeToken

/-- What holds of the memory, the slot and the handshake at any time. -/
structure Kept (s : Client) : Prop where
  size : ∀ mem, s.shmem = some mem → IPC_TOKEN_LEN ≤ mem.length
  named : s.shmem.isSome = s.shmemRuntimeName.isSome
  names : ∀ name, s.shmemRuntimeName = some name → name ∈ s.names
  slot : ∀ token, s.ipcRuntimeToken = some token →
    isValidPortableServiceIpcToken token = true ∧ s.shmemRuntimeName.isSome = true
  held : ∀ token name, s.handshake.holds = some (token, name) →
    isValidPortableServiceIpcToken token = true ∧ ∃ n ∈ s.names, name = some n

structure Agree (s : Client) : Prop extends Kept s where
  one : ∀ (i j : Nat) (a b : Phase), s.launches[i]? = some a → s.launches[j]? = some b → a.inProgress = true →
    b.inProgress = true → i = j
  stage : ∀ (i : Nat) (a : Phase), s.launches[i]? = some a → a.inProgress = true → s.Stage a
  quiet : (∀ phase ∈ s.launches, phase.inProgress = false) → s.Stage .ended

variable {s} {s' : Client} {i : Nat} {a phase : Phase}

theorem apart_of_ne {e : Event} (hcreate : ∀ i made, e ≠ .create i made) (hbegin : ∀ i hasProcess, e ≠ .begin_ i hasProcess)
    (hexit : e ≠ .exitHook) : s.Apart e := by
  unfold Apart
  split
  · next i hasProcess => exact absurd rfl (hbegin _ _)
  · exact absurd rfl hexit
  · exact absurd rfl (hcreate _ _)
  · trivial

/-! ## Steps by what they leave -/

/-- The launch in progress goes on, or ends. -/
theorem Agree.advance (h : s.Agree) (phase : Phase) (hi : s.launches[i]? = some a) (ha : a.inProgress = true)
    (hlaunches : s'.launches = s.launches.set i phase) (hkept : s'.Kept) (hstage : s'.Stage phase)
    (hended : phase.inProgress = false → s'.Stage .ended) : s'.Agree := by
  have hlt := (List.getElem?_eq_some_iff.1 hi).1
  have honly : ∀ (j : Nat) (b : Phase), s'.launches[j]? = some b → b.inProgress = true → j = i ∧ b = phase := by
    intro j b hj hb
    rw [hlaunches] at hj
    rcases getElem?_set_eq_some hj with heq | ⟨hne, hj⟩
    · exact heq
    · exact absurd (h.one j i b a hj hi hb ha) hne
  refine { hkept with one := ?_, stage := ?_, quiet := fun hquiet => hended (hquiet phase ?_) }
  · intro j k b c hj hk hb hc
    rw [(honly j b hj hb).1, (honly k c hk hc).1]
  · intro j b hj hb
    exact (honly j b hj hb).2 ▸ hstage
  · rw [hlaunches]
    exact List.mem_of_getElem? (List.getElem?_set_self hlt)

/-- A launch begins where there is none in progress. -/
theorem Agree.begins (phase : Phase) (hquiet : ∀ phase ∈ s.launches, phase.inProgress = false)
    (hlaunches : s'.launches = s.launches.set i phase) (hkept : s'.Kept) (hended : s'.Stage .ended)
    (hstage : s'.Stage phase) : s'.Agree := by
  have honly : ∀ (j : Nat) (b : Phase), s'.launches[j]? = some b → b.inProgress = true → j = i ∧ b = phase := by
    intro j b hj hb
    rw [hlaunches] at hj
    rcases getElem?_set_eq_some hj with heq | ⟨-, hj⟩
    · exact heq
    · rw [hquiet b (List.mem_of_getElem? hj)] at hb
      cases hb
  refine { hkept with one := ?_, stage := ?_, quiet := fun _ => hended }
  · intro j k b c hj hk hb hc
    rw [(honly j b hj hb).1, (honly k c hk hc).1]
  · intro j b hj hb
    exact (honly j b hj hb).2 ▸ hstage

/-- A step of something else. -/
theorem Agree.other (h : s.Agree) (hlaunches : s'.launches = s.launches) (hkept : s'.Kept)
    (hstage : ∀ phase, s.Stage phase → s'.Stage phase) : s'.Agree :=
  { hkept with
    one := hlaunches ▸ h.one
    stage := fun j b hj hb => hstage b (h.stage j b (hlaunches ▸ hj) hb)
    quiet := fun hquiet => hstage .ended (h.quiet (hlaunches ▸ hquiet)) }

/-- Nothing of this is touched, but that a handshake may have ended. -/
theorem Kept.same (h : s.Kept) (hshmem : s'.shmem = s.shmem) (hname : s'.shmemRuntimeName = s.shmemRuntimeName)
    (hslot : s'.ipcRuntimeToken = s.ipcRuntimeToken) (hnames : s'.names = s.names)
    (hholds : ∀ p, s'.handshake.holds = some p → s.handshake.holds = some p) : s'.Kept where
  size mem hmem := h.size mem (hshmem ▸ hmem)
  named := by rw [hshmem, hname, h.named]
  names name hmem := hnames ▸ h.names name (hname ▸ hmem)
  slot token htoken := hname ▸ h.slot token (hslot ▸ htoken)
  held token name hheld := hnames ▸ h.held token name (hholds _ hheld)

theorem Stage.same (h : s.Stage phase) (hshmem : s'.shmem = s.shmem) (hname : s'.shmemRuntimeName = s.shmemRuntimeName)
    (hslot : s'.ipcRuntimeToken = s.ipcRuntimeToken)
    (hholds : ∀ p, s'.handshake.holds = some p → s.handshake.holds = some p) : s'.Stage phase := by
  have hreadable : s'.readable = s.readable := by rw [readable, readable, hshmem]
  cases phase with
  | cleared launchToken => exact ⟨hshmem.trans h.1, hname.trans h.2.1, hslot.trans h.2.2⟩
  | created launchToken token =>
    refine ⟨hreadable.trans h.1, hslot.trans h.2.1, fun token' name hheld => ?_⟩
    rw [hname]
    exact h.2.2 token' name (hholds _ hheld)
  | _ => exact hreadable.trans (Eq.trans h hslot.symm)

theorem Agree.same (h : s.Agree) (hlaunches : s'.launches = s.launches) (hshmem : s'.shmem = s.shmem)
    (hname : s'.shmemRuntimeName = s.shmemRuntimeName) (hslot : s'.ipcRuntimeToken = s.ipcRuntimeToken)
    (hnames : s'.names = s.names) (hholds : ∀ p, s'.handshake.holds = some p → s.handshake.holds = some p) : s'.Agree :=
  h.other hlaunches (h.toKept.same hshmem hname hslot hnames hholds) fun _ hstage => hstage.same hshmem hname hslot hholds

theorem Kept.clear (h : s.Kept) : s.clearRuntimeShmemState.Kept where
  size mem hmem := by cases hmem
  named := rfl
  names name hname := by cases hname
  slot token htoken := by cases htoken
  held := h.held

/-- A call that is not in progress is noted. -/
theorem Agree.noted (h : s.Agree) {launches : List Phase} (hkept : ({ s with launches } : Client).Kept)
    (hnew : ∀ (j : Nat) (b : Phase), launches[j]? = some b → b.inProgress = true → s.launches[j]? = some b)
    (hold : (∀ b ∈ launches, b.inProgress = false) → ∀ b ∈ s.launches, b.inProgress = false) :
    ({ s with launches } : Client).Agree :=
  { hkept with
    one := fun j k b c hj hk hb hc => h.one j k b c (hnew j b hj hb) (hnew k c hk hc) hb hc
    stage := fun j b hj hb => (h.stage j b (hnew j b hj hb) hb).same rfl rfl rfl fun _ hp => hp
    quiet := fun hquiet => (h.quiet (hold hquiet)).same rfl rfl rfl fun _ hp => hp }

/-! ## Steps that touch the memory -/

theorem Agree.create (h : s.Agree) {launchToken size : Nat} {name : String} {randomBytes : Bytes}
    (hi : s.launches[i]? = some (.cleared launchToken)) (hbytes : randomBytes.length = IPC_TOKEN_RANDOM_BYTES)
    (hsize : IPC_TOKEN_LEN ≤ size) (hname : name ∉ s.names) : (s.create i launchToken name randomBytes size).Agree := by
  have hvalid := generate_valid hbytes
  obtain ⟨-, -, hslot⟩ := h.stage i _ hi rfl
  unfold Client.create
  generalize generateOneTimeIpcToken randomBytes = token at hvalid ⊢
  have hwrite : writeIpcTokenToShmem (List.replicate size 0) token = .ok (write (List.replicate size 0) token) := if_pos hvalid
  have hlong : IPC_TOKEN_LEN ≤ (List.replicate size (0 : UInt8)).length := by rwa [List.length_replicate]
  dsimp only
  rw [hwrite]
  refine h.advance _ hi rfl rfl ⟨fun mem hmem => ?_, rfl, fun n hn => ?_, fun t ht => ?_, fun t n hheld => ?_⟩ ?_ fun hp => by cases hp
  · obtain rfl := Option.some.inj hmem
    rwa [length_write (length_of_valid hvalid ▸ hlong)]
  · obtain rfl := Option.some.inj hn
    exact List.mem_cons_self
  · change s.ipcRuntimeToken = some t at ht
    rw [hslot] at ht
    cases ht
  · obtain ⟨ht, m, hm, hname'⟩ := h.held t n hheld
    exact ⟨ht, m, List.mem_cons_of_mem _ hm, hname'⟩
  · refine ⟨read_write hlong hvalid, hslot, fun t n hheld => ?_⟩
    obtain ⟨-, m, hm, rfl⟩ := h.held t n hheld
    rintro heq
    exact hname (Option.some.inj heq ▸ hm)

theorem Agree.set (h : s.Agree) {launchToken : Nat} {token : Bytes} (hi : s.launches[i]? = some (.created launchToken token)) :
    ({ s.setPhase i (.ready launchToken) with ipcRuntimeToken := some token } : Client).Agree := by
  obtain ⟨hreadable, -, -⟩ := h.stage i _ hi rfl
  refine h.advance _ hi rfl rfl ⟨h.size, h.named, h.names, fun t ht => ?_, h.held⟩ hreadable fun hp => by cases hp
  obtain rfl := Option.some.inj ht
  obtain ⟨mem, hmem, hread⟩ := Option.bind_eq_some_iff.1 hreadable
  refine ⟨valid_of_read hread, ?_⟩
  change s.shmemRuntimeName.isSome = true
  rw [← h.named, hmem]
  rfl

theorem Agree.token (h : s.Agree) (candidate : Bytes) :
    ({ (s.consumeRuntimeIpcTokenIfMatch candidate).2 with
      handshake := .answering (s.consumeRuntimeIpcTokenIfMatch candidate).1 } : Client).Agree := by
  unfold consumeRuntimeIpcTokenIfMatch
  split
  · next hmatch =>
    obtain ⟨expected, hslot, heq⟩ := (Option.any_eq_true _ _).1 hmatch
    obtain ⟨rfl, -⟩ := constantTimeIpcTokenEq_iff.1 heq
    obtain ⟨hvalid, hsome⟩ := h.slot expected hslot
    refine h.other rfl ⟨fun mem hmem => ?_, ?_, h.names, fun t ht => (by cases ht), fun t n hheld => ?_⟩ fun phase hstage => ?_
    · obtain ⟨old, hold, rfl⟩ := Option.map_eq_some_iff.1 hmem
      have hlong := h.size old hold
      rw [clearIpcTokenInShmem, length_write (by rwa [List.length_replicate])]
      exact hlong
    · rw [← h.named]
      exact Option.isSome_map
    · obtain ⟨rfl, rfl⟩ := Prod.mk.inj (Option.some.inj hheld)
      obtain ⟨n, hn⟩ := Option.isSome_iff_exists.1 hsome
      exact ⟨hvalid, n, h.names n hn, hn⟩
    · have hread : (s.shmem.map clearIpcTokenInShmem).bind readIpcTokenFromShmem = none := by
        cases hmem : s.shmem with
        | none => rfl
        | some mem => exact read_clear (h.size mem hmem)
      cases phase with
      | cleared launchToken =>
        rw [hstage.2.2] at hslot
        cases hslot
      | created launchToken token =>
        rw [hstage.2.1] at hslot
        cases hslot
      | _ => exact hread
  · exact h.same rfl rfl rfl rfl rfl fun p hp => by cases hp

theorem Agree.restore (h : s.Agree) (honce : s.Once) {token : Bytes} {name : Option String}
    (hrestoring : s.handshake = .restoring token name) :
    ({ s.restoreRuntimeIpcToken token name with handshake := .resetting } : Client).Agree := by
  obtain ⟨hvalid, n, hn, rfl⟩ := h.held token name (by rw [hrestoring]; rfl)
  have hdrop : ∀ p, Handshake.resetting.holds = some p → s.handshake.holds = some p := fun p hp => by cases hp
  unfold restoreRuntimeIpcToken
  split
  · exact h.same rfl rfl rfl rfl rfl hdrop
  · next hother =>
    -- the handshake has the token, so that the slot has not
    have hslot : s.ipcRuntimeToken = none := by
      cases hslot : s.ipcRuntimeToken with
      | none => rfl
      | some current =>
        have hsame : current = token := by simpa [hslot] using hother
        have hheld := honce.held token
        have hfresh := honce.fresh token
        simp only [Client.holds, hslot, hsame, hrestoring, Handshake.consumed, beq_self_eq_true, Bool.toNat_true] at hheld
        omega
    have hkeeps : (if s.ipcRuntimeToken == some token then none else s.ipcRuntimeToken) = s.ipcRuntimeToken := by
      rw [hslot]
      rfl
    rw [hkeeps]
    split
    · exact h.same rfl rfl rfl rfl rfl hdrop
    · next hname =>
      rw [not_not] at hname
      obtain ⟨mem, hmem⟩ : ∃ mem, s.shmem = some mem := by
        rw [← Option.isSome_iff_exists, h.named, hname]
        rfl
      have hwrite : writeIpcTokenToShmem mem token = .ok (write mem token) := if_pos hvalid
      have hlong := h.size mem hmem
      rw [hmem, Option.map_some, hwrite]
      refine h.other rfl ⟨fun m hm => ?_, ?_, h.names, fun t ht => ?_, fun t n hheld => (by cases hheld)⟩ fun phase hstage => ?_
      · obtain rfl := Option.some.inj hm
        rwa [length_write (length_of_valid hvalid ▸ hlong)]
      · rw [show _ = s.shmemRuntimeName from rfl, hname]
        rfl
      · obtain rfl := Option.some.inj ht
        refine ⟨hvalid, ?_⟩
        rw [show _ = s.shmemRuntimeName from rfl, hname]
        rfl
      · cases phase with
        | cleared launchToken =>
          rw [hstage.2.1] at hname
          cases hname
        | created launchToken made => exact absurd hname.symm (hstage.2.2 token _ (by rw [hrestoring]; rfl))
        | _ => exact read_write hlong hvalid

/-- A call that has given up, or failed, is over. -/
theorem Agree.over (h : s.Agree) (starting : Bool) (hi : s.launches[i]? = some a) (ha : a.inProgress = false) :
    ({ s.setPhase i .ended with starting } : Client).Agree := by
  have hnoted : (s.setPhase i .ended).Agree := by
    refine h.noted (h.toKept.same rfl rfl rfl rfl fun _ hp => hp) (fun j b hj hb => ?_) fun hall b hb => ?_
    · rcases getElem?_set_eq_some hj with ⟨-, rfl⟩ | ⟨-, hj⟩
      · cases hb
      · exact hj
    · obtain ⟨j, hj⟩ := List.mem_iff_getElem?.1 hb
      by_cases hji : j = i
      · subst hji
        obtain rfl := Option.some.inj (hi.symm.trans hj)
        exact ha
      · exact hall b (List.mem_of_getElem? ((List.getElem?_set_ne (Ne.symm hji)).trans hj))
  exact hnoted.same rfl rfl rfl rfl rfl fun _ hp => hp

theorem Agree.step {e : Event} (h : s.Agree) (honce : s.Once) (hapart : s.Apart e) (hstep : s.step e = some s') :
    s'.Agree := by
  have hsame : s.Kept := h.toKept
  have hheld : ∀ p, s.handshake.holds = some p → s.handshake.holds = some p := fun _ hp => hp
  cases e with
  | ask =>
    obtain rfl := Option.some.inj hstep
    refine h.noted (hsame.same rfl rfl rfl rfl hheld) (fun j b hj hb => ?_) fun hall b hb => hall b (List.mem_append_left _ hb)
    rcases Nat.lt_or_ge j s.launches.length with hlt | hge
    · rwa [List.getElem?_append_left hlt] at hj
    · rw [List.getElem?_append_right hge] at hj
      rw [List.mem_singleton.1 (List.mem_of_getElem? hj)] at hb
      cases hb
  | begin_ i hasProcess =>
    unfold Client.step at hstep
    dsimp only at hstep
    split at hstep
    · next running hi =>
      split at hstep
      · obtain rfl := Option.some.inj hstep
        exact h.over _ hi rfl
      · next hgoes =>
        obtain rfl := Option.some.inj hstep
        have hgoes : s.goesOn i hasProcess = true := by
          unfold goesOn
          rw [hi]
          dsimp only
          rw [Bool.eq_false_of_not_eq_true hgoes, Bool.not_false]
        have hquiet := hapart hgoes
        have hstage := (h.quiet hquiet).same rfl rfl rfl hheld
        exact Agree.begins (.began (s.startingToken + 1)) hquiet rfl (hsame.same rfl rfl rfl rfl hheld) hstage hstage
    · cases hstep
  | clear i =>
    unfold Client.step at hstep
    dsimp only at hstep
    split at hstep
    · next launchToken hi =>
      obtain rfl := Option.some.inj hstep
      exact h.advance _ hi rfl rfl (hsame.clear.same rfl rfl rfl rfl hheld) ⟨rfl, rfl, rfl⟩ fun hp => by cases hp
    · cases hstep
  | create i made =>
    unfold Client.step at hstep
    dsimp only at hstep
    split at hstep
    · next launchToken hi =>
      cases made with
      | none =>
        obtain rfl := Option.some.inj hstep
        obtain ⟨hshmem, -, hslot⟩ := h.stage i _ hi rfl
        have hnone : s.readable = s.ipcRuntimeToken := by
          rw [readable, hshmem, hslot]
          rfl
        exact h.advance _ hi rfl rfl (hsame.same rfl rfl rfl rfl hheld) hnone fun _ => hnone
      | some made =>
        obtain ⟨name, randomBytes, size⟩ := made
        dsimp only at hstep
        split at hstep
        · next hmade => exact Option.some.inj hstep ▸ h.create hi hmade.1 hmade.2 hapart
        · cases hstep
    · cases hstep
  | set i =>
    unfold Client.step at hstep
    dsimp only at hstep
    split at hstep
    · next launchToken token hi => exact Option.some.inj hstep ▸ h.set hi
    · cases hstep
  | run i ran =>
    unfold Client.step at hstep
    dsimp only at hstep
    split at hstep
    · next launchToken hi =>
      have hstage : s.readable = s.ipcRuntimeToken := h.stage i _ hi rfl
      cases ran with
      | started =>
        exact Option.some.inj hstep ▸
          h.advance .ended hi rfl rfl (hsame.same rfl rfl rfl rfl hheld) hstage fun _ => hstage
      | failed =>
        exact Option.some.inj hstep ▸
          h.advance .failing hi rfl rfl (hsame.clear.same rfl rfl rfl rfl hheld) rfl fun _ => rfl
      | noExe =>
        exact Option.some.inj hstep ▸
          h.advance .failing hi rfl rfl (hsame.same rfl rfl rfl rfl hheld) hstage fun _ => hstage
    · cases hstep
  | fail i =>
    unfold Client.step at hstep
    dsimp only at hstep
    split at hstep
    · next hi => exact Option.some.inj hstep ▸ h.over false hi rfl
    · cases hstep
  | wake k =>
    unfold Client.step at hstep
    dsimp only at hstep
    split at hstep
    · exact Option.some.inj hstep ▸ h.same rfl rfl rfl rfl rfl hheld
    · exact Option.some.inj hstep ▸ h.same rfl rfl rfl rfl rfl hheld
    · exact Option.some.inj hstep ▸ h.same rfl rfl rfl rfl rfl hheld
    · cases hstep
  | reset k =>
    unfold Client.step at hstep
    dsimp only at hstep
    split at hstep
    · exact Option.some.inj hstep ▸ h.same rfl rfl rfl rfl rfl hheld
    · cases hstep
  | accept =>
    unfold Client.step at hstep
    dsimp only at hstep
    split at hstep
    · exact Option.some.inj hstep ▸ h.same rfl rfl rfl rfl rfl fun p hp => by cases hp
    · cases hstep
  | token candidate =>
    unfold Client.step at hstep
    dsimp only at hstep
    split at hstep
    · cases candidate with
      | none => exact Option.some.inj hstep ▸ h.same rfl rfl rfl rfl rfl fun p hp => by cases hp
      | some candidate => exact Option.some.inj hstep ▸ h.token candidate
    · cases hstep
  | answer sent =>
    unfold Client.step at hstep
    dsimp only at hstep
    split at hstep
    · exact Option.some.inj hstep ▸ h.same rfl rfl rfl rfl rfl fun p hp => by cases hp
    · next token name hanswering =>
      split at hstep
      · exact Option.some.inj hstep ▸ h.same rfl rfl rfl rfl rfl fun p hp => by cases hp
      · refine Option.some.inj hstep ▸ h.same rfl rfl rfl rfl rfl fun p hp => ?_
        rw [hanswering]
        exact hp
    · cases hstep
  | restore =>
    unfold Client.step at hstep
    dsimp only at hstep
    split at hstep
    · next token name hrestoring => exact Option.some.inj hstep ▸ h.restore honce hrestoring
    · cases hstep
  | resetStarting =>
    unfold Client.step at hstep
    dsimp only at hstep
    split at hstep
    · exact Option.some.inj hstep ▸ h.same rfl rfl rfl rfl rfl fun p hp => by cases hp
    · cases hstep
  | pong =>
    unfold Client.step at hstep
    dsimp only at hstep
    split at hstep
    · exact Option.some.inj hstep ▸ h.same rfl rfl rfl rfl rfl hheld
    · cases hstep
  | close =>
    unfold Client.step at hstep
    dsimp only at hstep
    split at hstep
    · exact Option.some.inj hstep ▸ h.same rfl rfl rfl rfl rfl hheld
    · cases hstep
  | closed =>
    unfold Client.step at hstep
    dsimp only at hstep
    split at hstep
    · exact Option.some.inj hstep ▸ h.same rfl rfl rfl rfl rfl hheld
    · cases hstep
  | exitHook =>
    obtain rfl := Option.some.inj hstep
    have hstage : s.clearRuntimeShmemState.Stage .ended := rfl
    refine { hsame.clear with one := h.one, stage := fun j b hj hb => ?_, quiet := fun _ => hstage }
    have hquiet : b.inProgress = false := hapart b (List.mem_of_getElem? hj)
    rw [hquiet] at hb
    cases hb

theorem Agree.init : ({} : Client).Agree where
  size mem hmem := by cases hmem
  named := rfl
  names name hname := by cases hname
  slot token htoken := by cases htoken
  held token name hheld := by cases hheld
  one i j a b hi := by cases hi
  stage i a hi := by cases hi
  quiet _ := rfl

/-- What is taken is what the slot has. -/
theorem consume_isSome_iff {candidate : Bytes} (hvalid : ∀ token, s.ipcRuntimeToken = some token → token.length = IPC_TOKEN_LEN) :
    (s.consumeRuntimeIpcTokenIfMatch candidate).1.isSome = true ↔ s.ipcRuntimeToken = some candidate := by
  unfold consumeRuntimeIpcTokenIfMatch
  constructor
  · intro hsome
    split at hsome
    · next hmatch =>
      obtain ⟨expected, hslot, heq⟩ := (Option.any_eq_true _ _).1 hmatch
      obtain ⟨rfl, -⟩ := constantTimeIpcTokenEq_iff.1 heq
      exact hslot
    · cases hsome
  · intro hslot
    have heq : constantTimeIpcTokenEq candidate candidate = true := constantTimeIpcTokenEq_iff.2 ⟨rfl, hvalid _ hslot⟩
    have hmatch : s.ipcRuntimeToken.any (constantTimeIpcTokenEq · candidate) = true :=
      (Option.any_eq_true _ _).2 ⟨candidate, hslot, heq⟩
    rw [if_pos hmatch]
    rfl

/-- The memory and the slot are apart from `create` to `set` of one launch only. -/
theorem Agree.readable_eq (h : s.Agree) (hnone : ∀ phase ∈ s.launches, phase.token = none) :
    s.readable = s.ipcRuntimeToken := by
  by_cases hquiet : ∀ phase ∈ s.launches, phase.inProgress = false
  · exact h.quiet hquiet
  · push Not at hquiet
    obtain ⟨a, hmem, ha⟩ := hquiet
    obtain ⟨i, hi⟩ := List.mem_iff_getElem?.1 hmem
    have hstage := h.stage i a hi (Bool.of_not_eq_false ha)
    cases a with
    | cleared launchToken =>
      rw [readable, hstage.1, hstage.2.2]
      rfl
    | created launchToken token => cases hnone _ hmem
    | _ => exact hstage

end Client

/-- In every run in which no random bytes and no name of a memory come up twice, and no launch begins and nothing is
cleared at an exit while a launch is in progress, in whatever order the rest comes: what is taken from a helper is what
a helper reads, but while a launch is between the memory and the slot, when nothing is taken. -/
theorem token_agrees {history : List (Client × Event)} {s : Client} (hrun : Exec (· = {}) Client.step history s)
    (hapart : ∀ p ∈ history, p.1.Fresh p.2 ∧ p.1.Apart p.2) :
    ((∀ phase ∈ s.launches, phase.token = none) → s.readable = s.ipcRuntimeToken ∧
      ∀ candidate, (s.consumeRuntimeIpcTokenIfMatch candidate).1.isSome = true ↔ s.readable = some candidate) ∧
    ∀ phase ∈ s.launches, ∀ token, phase.token = some token → s.readable = some token ∧
      ∀ candidate, (s.consumeRuntimeIpcTokenIfMatch candidate).1 = none := by
  have hinvariant : s.Once ∧ s.Agree := by
    refine hrun.invariant_of (I := fun s => s.Once ∧ s.Agree) (G := fun s e => s.Fresh e ∧ s.Apart e) ?_ ?_ hapart
    · rintro s rfl
      exact ⟨.init, .init⟩
    · rintro s e s' ⟨honce, hagree⟩ ⟨hfresh, hapart⟩ hstep
      exact ⟨honce.step hfresh hstep, hagree.step honce hapart hstep⟩
  obtain ⟨-, hagree⟩ := hinvariant
  have hlength : ∀ token, s.ipcRuntimeToken = some token → token.length = IPC_TOKEN_LEN := fun token htoken =>
    length_of_valid (hagree.slot token htoken).1
  refine ⟨fun hnone => ?_, fun phase hmem token htoken => ?_⟩
  · have hreadable := hagree.readable_eq hnone
    refine ⟨hreadable, fun candidate => ?_⟩
    rw [hreadable]
    exact Client.consume_isSome_iff hlength
  · obtain ⟨i, hi⟩ := List.mem_iff_getElem?.1 hmem
    cases phase with
    | created launchToken made =>
      obtain rfl := Option.some.inj htoken
      obtain ⟨hreadable, hslot, -⟩ := hagree.stage i _ hi rfl
      refine ⟨hreadable, fun candidate => ?_⟩
      cases hconsumed : (s.consumeRuntimeIpcTokenIfMatch candidate).1 with
      | none => rfl
      | some p =>
        have hsome := (Client.consume_isSome_iff hlength).1 (Option.isSome_iff_exists.2 ⟨p, hconsumed⟩)
        rw [hslot] at hsome
        cases hsome
    | _ => cases htoken

/-! ## A token that is put back -/

def exampleAsked : Client where
  launches := [.asked false]

def exampleBegan : Client where
  starting := true
  startingToken := 1
  launches := [.began 1]

def exampleRestored : Client where
  starting := true
  startingToken := 1
  shmem := some (write (clearIpcTokenInShmem exampleToken) exampleToken)
  shmemRuntimeName := some "shm"
  ipcRuntimeToken := some exampleToken
  launches := [.ended]
  watchdogs := [.sleeping 1]
  handshake := .resetting
  generated := [exampleToken]
  names := ["shm"]

/-- The helper whose answer could not be sent reads the token again, and would be let in with it. -/
theorem token_agrees_restored : ∃ history, Exec (· = {}) Client.step history exampleRestored ∧
    (∀ p ∈ history, p.1.Fresh p.2 ∧ p.1.Apart p.2) ∧ exampleRestored.readable = some exampleToken ∧
      (exampleRestored.consumeRuntimeIpcTokenIfMatch exampleToken).1.isSome = true := by
  obtain ⟨after, hafter⟩ : ∃ after, trace Client.step exampleCreated
      [.set 0, .run 0 .started, .accept, .token (some exampleToken), .answer false, .restore] =
        some (after, exampleRestored) := ⟨_, rfl⟩
  have hstart : Exec (· = ({} : Client)) Client.step [] {} := .start rfl
  have hasked : Exec (· = ({} : Client)) Client.step _ exampleAsked := hstart.snoc (e := .ask) rfl
  have hbegan : Exec (· = ({} : Client)) Client.step _ exampleBegan := hasked.snoc (e := .begin_ 0 true) rfl
  have hcleared : Exec (· = ({} : Client)) Client.step _ exampleCleared := hbegan.snoc (e := .clear 0) rfl
  have hcreated : Exec (· = ({} : Client)) Client.step _ exampleCreated := hcleared.snoc (e := exampleCreate) rfl
  have hrun := hcreated.trace hafter
  have hapart : ∀ p ∈ after ++ [(exampleCleared, exampleCreate), (exampleBegan, .clear 0), (exampleAsked, .begin_ 0 true),
      ({}, .ask)], p.1.Fresh p.2 ∧ p.1.Apart p.2 := by
    intro p hp
    rcases List.mem_append.1 hp with hp | hp
    · have hmem := trace_events hafter p hp
      simp only [List.mem_cons, List.not_mem_nil, or_false] at hmem
      refine ⟨Client.fresh_of_ne fun i made heq => ?_, Client.apart_of_ne (fun i made heq => ?_) (fun i hasProcess heq => ?_)
        fun heq => ?_⟩ <;> simp [heq] at hmem
    · simp only [List.mem_cons, List.not_mem_nil, or_false] at hp
      rcases hp with rfl | rfl | rfl | rfl
      · exact ⟨List.not_mem_nil, List.not_mem_nil⟩
      · exact ⟨trivial, trivial⟩
      · exact ⟨trivial, by simp [Client.Apart, exampleAsked, Phase.inProgress]⟩
      · exact ⟨trivial, trivial⟩
  obtain ⟨hnone, -⟩ := token_agrees hrun hapart
  obtain ⟨-, htaken⟩ := hnone (by simp [exampleRestored, Phase.token])
  have hvalid : isValidPortableServiceIpcToken exampleToken = true := generate_valid List.length_replicate
  have hlong : IPC_TOKEN_LEN ≤ (clearIpcTokenInShmem exampleToken).length := by
    rw [clearIpcTokenInShmem, length_write (by rw [List.length_replicate, length_of_valid hvalid]), length_of_valid hvalid]
  have hreadable : exampleRestored.readable = some exampleToken := by
    rw [Client.readable, exampleRestored, Option.bind_some]
    exact read_write hlong hvalid
  exact ⟨_, hrun, hapart, hreadable, (htaken exampleToken).2 hreadable⟩

end FontisRemote.PortableService
