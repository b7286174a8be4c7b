import FontisRemote.PortForward.LoginTurn
import FontisRemote.Lib.Slots

/-!
# A mapping logs in as itself

Only the mapping that has the turn writes the target and the hash of the shared handler (`Kept`), so what
it has filled in is there until its request is built (`Filled`). The request then names the mapping's own
target, and its digest is of the challenge of the connection's latest `Hash` (`Own`).

A password typed while a connection is being made is kept for its `Hash`, unless it came while the mapping
waited for a word on the insecure connection: there it is dropped (`Attempt.Coherent`).
-/

namespace FontisRemote.PortForward

open FontisRemote.Lib

section Logins

variable {sha256 : Bytes → Bytes} {kept : Bytes → Prop}

/-! ## What a login sends -/

/-- A salted password, or none, hashed with the challenge. -/
def Digest (sha256 : Bytes → Bytes) (kept : Bytes → Prop) (h : Hash) (digest : Bytes) : Prop :=
  digest = [] ∨ ∃ p, Salted sha256 kept p ∧ digest = sha256 (p ++ h.challenge)

/-- The digest of a typed password. -/
def DigestOf (sha256 : Bytes → Bytes) (h : Hash) (login : UiLogin) (digest : Bytes) : Prop :=
  login.password ≠ [] → digest = sha256 (sha256 (login.password ++ h.salt) ++ h.challenge)

/-- The request names this target, and answers this challenge. -/
structure Own (sha256 : Bytes → Bytes) (kept : Bytes → Prop) (dest : String × Int) (mux : Bool) (h : Hash)
    (request : LoginRequest) : Prop where
  host : request.host = dest.1
  port : request.port = dest.2
  multiplex : request.multiplex = mux
  digest : Digest sha256 kept h request.password

/-- The handler names the mapping's target. -/
structure Target (lc : LoginConfigHandler sha256 kept) (dest : String × Int) (mux : Bool) : Prop where
  portForward : lc.portForward = dest
  multiplex : lc.portForwardMultiplex = mux

theorem Target.own {lc : LoginConfigHandler sha256 kept} {dest : String × Int} {mux : Bool} {h : Hash}
    {digest : Bytes} (ht : Target lc dest mux) (hd : Digest sha256 kept h digest) :
    Own sha256 kept dest mux h (lc.createLoginMsg digest) := by
  refine ⟨?_, ?_, ht.multiplex, hd⟩
  · exact congrArg Prod.fst ht.portForward
  · exact congrArg Prod.snd ht.portForward

/-! ## What a login has filled in -/

/-- Nothing was written to the target and the hash. -/
structure Kept (lc lc' : LoginConfigHandler sha256 kept) : Prop where
  portForward : lc'.portForward = lc.portForward
  multiplex : lc'.portForwardMultiplex = lc.portForwardMultiplex
  hash : lc'.hash = lc.hash

theorem Kept.refl (lc : LoginConfigHandler sha256 kept) : Kept lc lc :=
  ⟨rfl, rfl, rfl⟩

theorem Target.mono {lc lc' : LoginConfigHandler sha256 kept} {dest : String × Int} {mux : Bool}
    (h : Target lc dest mux) (hk : Kept lc lc') : Target lc' dest mux :=
  ⟨hk.portForward.trans h.portForward, hk.multiplex.trans h.multiplex⟩

def HashPc.Filled (lc : LoginConfigHandler sha256 kept) (dest : String × Int) (mux : Bool) (h : Hash) :
    HashPc sha256 kept → Prop
  | .portForward => True
  | .multiplex => lc.portForward = dest
  | .sendSwitch request => Own sha256 kept dest mux h request
  | .build digest => Target lc dest mux ∧ Digest sha256 kept h digest
  | .switchSource => True
  | .send request => Own sha256 kept dest mux h request
  | .hashAgain => True
  | .release _ => True
  | _ => Target lc dest mux

/-- The password that a typed one was made into. -/
def TypedAs (h : Hash) (login : UiLogin) (password : SaltedPassword sha256 kept) : Prop :=
  login.password ≠ [] → password.1 = sha256 (login.password ++ h.salt)

def UiPc.Filled (lc : LoginConfigHandler sha256 kept) (dest : String × Int) (mux : Bool) (h : Hash)
    (login : UiLogin) : UiPc sha256 kept → Prop
  | .fill => True
  | .lastPassword => Target lc dest mux ∧ lc.hash = h ∧ login.password = []
  | .configPassword => Target lc dest mux ∧ lc.hash = h ∧ login.password = []
  | .configSource _ => Target lc dest mux ∧ lc.hash = h ∧ login.password = []
  | .typedSource => Target lc dest mux ∧ lc.hash = h
  | .salt => Target lc dest mux ∧ lc.hash = h
  | .remember password => Target lc dest mux ∧ lc.hash = h ∧ TypedAs h login password
  | .store password => Target lc dest mux ∧ lc.hash = h ∧ TypedAs h login password
  | .digest password => Target lc dest mux ∧ lc.hash = h ∧ TypedAs h login password
  | .build d => Target lc dest mux ∧ Digest sha256 kept h d ∧ DigestOf sha256 h login d
  | .send request => Own sha256 kept dest mux h request ∧ DigestOf sha256 h login request.password
  | .release => True

/-- Where the connections that the mapping accepts are to be taken. -/
def Mapping.target (m : Mapping sha256 kept) : String × Int :=
  (m.remoteHost, m.remotePort)

section Steps

variable {lc : LoginConfigHandler sha256 kept} {m : Mapping sha256 kept} {mux : Bool} {h : Hash}

theorem hashStep_filled (o : Outside sha256 kept) {pc : HashPc sha256 kept}
    (hpc : pc.Filled lc m.target mux h) :
    (hashStep lc m mux h o pc).2.Filled (hashStep lc m mux h o pc).1 m.target mux h := by
  cases pc with
  | portForward => exact rfl
  | multiplex => exact ⟨hpc, rfl⟩
  | hash => exact ⟨hpc.portForward, hpc.multiplex⟩
  | switchUuid =>
    have ht : Target { lc with switchUuid := none } m.target mux := ⟨hpc.portForward, hpc.multiplex⟩
    unfold hashStep
    dsimp only
    split
    · exact ht
    · exact ht
  | requestUuid =>
    unfold hashStep
    dsimp only
    split
    · exact hpc
    · exact hpc
  | allowSwitchBack => exact ⟨hpc.portForward, hpc.multiplex⟩
  | buildSwitch => exact Target.own hpc (.inl rfl)
  | sendSwitch request => trivial
  | switchSource => trivial
  | incomingOnly =>
    unfold hashStep
    dsimp only
    split
    · trivial
    · exact hpc
  | lastPassword =>
    unfold hashStep
    dsimp only
    split
    · exact hpc
    · exact hpc
  | presetSource => exact ⟨hpc.portForward, hpc.multiplex⟩
  | sharedPassword password =>
    have ht : Target { lc with sharedPassword := none } m.target mux := ⟨hpc.portForward, hpc.multiplex⟩
    unfold hashStep
    dsimp only
    split
    · exact ht
    · exact ht
  | sharedSource shared => exact ⟨hpc.portForward, hpc.multiplex⟩
  | configPassword password =>
    unfold hashStep
    dsimp only
    split
    · exact hpc
    · split
      · exact hpc
      · exact hpc
  | configSource password => exact ⟨hpc.portForward, hpc.multiplex⟩
  | personalAb =>
    unfold hashStep
    dsimp only
    split
    · exact hpc
    · exact hpc
  | personalSource password => exact ⟨hpc.portForward, hpc.multiplex⟩
  | builtinPassword =>
    unfold hashStep
    dsimp only
    split
    · exact hpc
    · exact hpc
  | builtinSource builtin => exact ⟨hpc.portForward, hpc.multiplex⟩
  | store password =>
    refine ⟨⟨hpc.portForward, hpc.multiplex⟩, ?_⟩
    unfold Digest
    split
    · exact .inl rfl
    · exact .inr ⟨password.1, password.2, rfl⟩
  | build digest => exact hpc.1.own hpc.2
  | send request => trivial
  | hashAgain => trivial
  | release res => trivial

theorem uiStep_filled {login : UiLogin} {pc : UiPc sha256 kept} (hpc : pc.Filled lc m.target mux h login) :
    (uiStep lc m mux h login pc).2.Filled (uiStep lc m mux h login pc).1 m.target mux h login := by
  cases pc with
  | fill =>
    have ht : Target { lc with
        portForward := (m.remoteHost, m.remotePort), portForwardMultiplex := mux, hash := h } m.target mux :=
      ⟨rfl, rfl⟩
    unfold uiStep
    dsimp only
    split
    · next hempty => exact ⟨ht, rfl, hempty⟩
    · exact ⟨ht, rfl⟩
  | lastPassword =>
    obtain ⟨ht, hhash, hempty⟩ := hpc
    unfold uiStep
    dsimp only
    split
    · exact ⟨ht, hhash, hempty⟩
    · exact ⟨ht, hhash, fun hne => absurd hempty hne⟩
  | configPassword =>
    obtain ⟨ht, hhash, hempty⟩ := hpc
    unfold uiStep
    dsimp only
    split
    · exact ⟨ht, hhash, fun hne => absurd hempty hne⟩
    · exact ⟨ht, hhash, hempty⟩
  | configSource password =>
    obtain ⟨ht, hhash, hempty⟩ := hpc
    exact ⟨⟨ht.portForward, ht.multiplex⟩, hhash, fun hne => absurd hempty hne⟩
  | typedSource => exact ⟨⟨hpc.1.portForward, hpc.1.multiplex⟩, hpc.2⟩
  | salt =>
    obtain ⟨ht, hhash⟩ := hpc
    refine ⟨ht, hhash, ?_⟩
    intro _
    rw [← hhash]
    rfl
  | remember password => exact ⟨⟨hpc.1.portForward, hpc.1.multiplex⟩, hpc.2⟩
  | store password => exact ⟨⟨hpc.1.portForward, hpc.1.multiplex⟩, hpc.2⟩
  | digest password =>
    obtain ⟨ht, hhash, htyped⟩ := hpc
    refine ⟨ht, ?_, ?_⟩
    · refine .inr ⟨password.1, password.2, ?_⟩
      rw [← hhash]
    · intro hne
      rw [← htyped hne, ← hhash]
  | build digest => exact ⟨hpc.1.own hpc.2.1, hpc.2.2⟩
  | send request => trivial
  | release => trivial

end Steps

/-! ## A mapping's place -/

theorem HashPc.Filled.frame {lc lc' : LoginConfigHandler sha256 kept} {dest : String × Int} {mux : Bool}
    {h : Hash} {pc : HashPc sha256 kept} (hpc : pc.Filled lc dest mux h) (hk : Kept lc lc') :
    pc.Filled lc' dest mux h := by
  cases pc with
  | portForward => trivial
  | multiplex => exact hk.portForward.trans hpc
  | sendSwitch request => exact hpc
  | switchSource => trivial
  | build digest => exact ⟨hpc.1.mono hk, hpc.2⟩
  | send request => exact hpc
  | hashAgain => trivial
  | release res => trivial
  | _ => exact Target.mono hpc hk

theorem UiPc.Filled.frame {lc lc' : LoginConfigHandler sha256 kept} {dest : String × Int} {mux : Bool}
    {h : Hash} {login : UiLogin} {pc : UiPc sha256 kept} (hpc : pc.Filled lc dest mux h login)
    (hk : Kept lc lc') : pc.Filled lc' dest mux h login := by
  cases pc with
  | fill => trivial
  | build d => exact ⟨hpc.1.mono hk, hpc.2⟩
  | send request => exact hpc
  | release => trivial
  | typedSource => exact ⟨hpc.1.mono hk, hk.hash.trans hpc.2⟩
  | salt => exact ⟨hpc.1.mono hk, hk.hash.trans hpc.2⟩
  | _ => exact ⟨hpc.1.mono hk, hk.hash.trans hpc.2.1, hpc.2.2⟩

/-- The password kept for the `Hash` is the last one typed, where that was not dropped. -/
structure Attempt.Coherent (a : Attempt) : Prop where
  pending : a.pendingLogin = (a.typed.filter fun t => !t.confirming).map Typed.login
  answered : a.challenge.isSome = true → a.typed = none

def LoginTask.challenge : LoginTask → Hash
  | .hash h => h
  | .ui h _ => h

namespace Pc

/-- It has the turn. -/
def holds : Pc sha256 kept → Bool
  | .hashing _ _ _ => true
  | .answering _ _ _ _ => true
  | _ => false

/-- The connection, and the request that goes out on it next. -/
def sends : Pc sha256 kept → Option (Attempt × LoginRequest)
  | .hashing a _ (.sendSwitch request) => some (a, request)
  | .hashing a _ (.send request) => some (a, request)
  | .answering a _ _ (.send request) => some (a, request)
  | _ => none

def Filled (lc : LoginConfigHandler sha256 kept) (dest : String × Int) : Pc sha256 kept → Prop
  | .confirming a => a.challenge = none ∧ a.pendingLogin = none ∧
      ∀ t, a.typed = some t → t.confirming = true
  | .selecting a => a.Coherent
  | .waits a task => a.Coherent ∧ a.challenge = some task.challenge
  | .hashing a h pc => a.Coherent ∧ a.challenge = some h ∧ pc.Filled lc dest a.mux h
  | .answering a h login pc => a.Coherent ∧ a.challenge = some h ∧ pc.Filled lc dest a.mux h login
  | _ => True

theorem Filled.frame {lc lc' : LoginConfigHandler sha256 kept} {dest : String × Int}
    {pc : Pc sha256 kept} (hpc : pc.Filled lc dest) (hk : pc.holds = true → Kept lc lc') :
    pc.Filled lc' dest := by
  cases pc with
  | hashing a h pc => exact ⟨hpc.1, hpc.2.1, hpc.2.2.frame (hk rfl)⟩
  | answering a h login pc => exact ⟨hpc.1, hpc.2.1, hpc.2.2.frame (hk rfl)⟩
  | _ => exact hpc

/-- Taking what the window sent neither takes the turn nor loses track of a password. -/
theorem Filled.receive {lc : LoginConfigHandler sha256 kept} {dest : String × Int}
    {pc pc' : Pc sha256 kept} {data : UiData} (hpc : pc.Filled lc dest)
    (hreceive : pc.receive data = some pc') : pc'.holds = false ∧ pc'.Filled lc dest := by
  cases pc with
  | listening =>
    obtain rfl := Option.some.inj hreceive
    split
    · exact ⟨rfl, trivial⟩
    · exact ⟨rfl, trivial⟩
  | confirming a =>
    obtain rfl := Option.some.inj hreceive
    obtain ⟨hchallenge, hpending, htyped⟩ := hpc
    cases data with
    | login login =>
      refine ⟨rfl, hchallenge, hpending, ?_⟩
      intro t ht
      obtain rfl := Option.some.inj ht
      rfl
    | continueInsecureConnection =>
      refine ⟨rfl, ?_, ?_⟩
      · rw [hpending]
        cases hlast : a.typed with
        | none => rfl
        | some t =>
          have hconfirming := htyped t hlast
          simp [Option.filter, hconfirming]
      · intro hsome
        rw [hchallenge] at hsome
        cases hsome
    | rejectInsecureConnection => exact ⟨rfl, trivial⟩
    | close => exact ⟨rfl, trivial⟩
    | message => exact ⟨rfl, hchallenge, hpending, htyped⟩
    | other => exact ⟨rfl, hchallenge, hpending, htyped⟩
  | selecting a =>
    obtain rfl := Option.some.inj hreceive
    cases data with
    | login login =>
      dsimp only
      split
      · next h hchallenge =>
        have hnone : a.typed = none := hpc.answered (hchallenge ▸ rfl)
        refine ⟨rfl, ⟨?_, fun _ => rfl⟩, hchallenge⟩
        have hpending := hpc.pending
        rw [hnone] at hpending
        exact hpending
      · next hchallenge =>
        refine ⟨rfl, rfl, ?_⟩
        intro hsome
        change a.challenge.isSome = true at hsome
        rw [hchallenge] at hsome
        cases hsome
    | _ => exact ⟨rfl, hpc⟩
  | _ => cases hreceive

end Pc

theorem Attempt.hashArrived_filled (lc : LoginConfigHandler sha256 kept) (dest : String × Int)
    (a : Attempt) (h : Hash) : (a.hashArrived h : Pc sha256 kept).holds = false ∧
      (a.hashArrived h : Pc sha256 kept).Filled lc dest := by
  refine ⟨rfl, ⟨rfl, fun _ => rfl⟩, ?_⟩
  cases a.pendingLogin with
  | none => rfl
  | some login => rfl

/-- The last password typed answers a `Hash` where it was not dropped. -/
theorem Attempt.Coherent.answers_iff {a : Attempt} (hc : a.Coherent) {t : Typed} (ht : a.typed = some t)
    (h : Hash) : (∃ a' : Attempt, (a.hashArrived h : Pc sha256 kept) = .waits a' (.ui h t.login)) ↔
      t.confirming = false := by
  have hpending := hc.pending
  rw [ht] at hpending
  unfold Attempt.hashArrived
  cases hconfirming : t.confirming with
  | true =>
    have hnone : a.pendingLogin = none := by
      rw [hpending]
      simp [Option.filter, hconfirming]
    rw [hnone]
    constructor
    · rintro ⟨a', heq⟩
      cases heq
    · intro hfalse
      cases hfalse
  | false =>
    have hsome : a.pendingLogin = some t.login := by
      rw [hpending]
      simp [Option.filter, hconfirming]
    rw [hsome]
    exact ⟨fun _ => rfl, fun _ => ⟨_, rfl⟩⟩

/-! ## The window -/

namespace PortForwardWindow

variable {s s' : PortForwardWindow sha256 kept}

structure Inv (s : PortForwardWindow sha256 kept) : Prop where
  turn : ∀ (i : Nat) (m : Mapping sha256 kept), s.mappings[i]? = some m → m.pc.holds = true →
    s.turn = some i
  filled : ∀ (i : Nat) (m : Mapping sha256 kept), s.mappings[i]? = some m → m.pc.Filled s.lc m.target

/-- A mapping goes on; whoever else has the turn keeps it, and what it has filled in. -/
theorem Inv.goes (h : s.Inv) {i : Nat} {m m' : Mapping sha256 kept}
    (lc' : LoginConfigHandler sha256 kept) (turn' : Option Nat)
    (hi : s.mappings[i]? = some m) (hothers : ∀ j, j ≠ i → s.turn = some j → turn' = some j ∧ Kept s.lc lc')
    (hturn : m'.pc.holds = true → turn' = some i) (hfilled : m'.pc.Filled lc' m'.target) :
    Inv ⟨lc', turn', s.mappings.set i m'⟩ := by
  constructor
  · intro j x hj hholds
    obtain ⟨rfl, rfl⟩ | ⟨hne, hj⟩ := getElem?_set_eq_some hj
    · exact hturn hholds
    · exact (hothers j hne (h.turn j x hj hholds)).1
  · intro j x hj
    obtain ⟨rfl, rfl⟩ | ⟨hne, hj⟩ := getElem?_set_eq_some hj
    · exact hfilled
    · exact (h.filled j x hj).frame fun hholds => (hothers j hne (h.turn j x hj hholds)).2

/-- A mapping that leaves the handler and the turn alone. -/
theorem Inv.moves (h : s.Inv) {i : Nat} {m m' : Mapping sha256 kept} (hi : s.mappings[i]? = some m)
    (hfree : m'.pc.holds = false) (hfilled : m'.pc.Filled s.lc m'.target) :
    Inv { s with mappings := s.mappings.set i m' } := by
  refine h.goes s.lc s.turn hi ?_ ?_ hfilled
  · intro j _ hj
    exact ⟨hj, .refl s.lc⟩
  · intro hholds
    rw [hfree] at hholds
    cases hholds

theorem Inv.work (h : s.Inv) {i : Nat} {m : Mapping sha256 kept} {o : Outside sha256 kept}
    (hi : s.mappings[i]? = some m) (hwork : s.work i m o m.pc = some s') : s'.Inv := by
  have hpc := h.filled i m hi
  have hturn := h.turn i m hi
  -- while a mapping has the turn, no other has it
  have halone : m.pc.holds = true → ∀ j, j ≠ i → s.turn ≠ some j := by
    intro hholds j hne hj
    rw [hturn hholds] at hj
    exact absurd (Option.some.inj hj).symm hne
  generalize hplace : m.pc = pc at hpc hturn halone hwork
  cases pc with
  | waits a task =>
    unfold PortForwardWindow.work at hwork
    dsimp only at hwork
    split at hwork
    · cases hwork
    · next hfree =>
      obtain rfl := Option.some.inj hwork
      have hnone : ∀ j, s.turn ≠ some j := by
        intro j hj
        rw [hj] at hfree
        exact hfree rfl
      refine h.goes _ _ hi (fun j _ hj => absurd hj (hnone j)) (fun _ => rfl) ?_
      cases task with
      | hash x => exact ⟨hpc.1, hpc.2, trivial⟩
      | ui x login => exact ⟨hpc.1, hpc.2, trivial⟩
  | hashing a x pc =>
    by_cases hlast : ∃ res, pc = .release res
    · obtain ⟨res, rfl⟩ := hlast
      obtain rfl := Option.some.inj hwork
      refine h.goes _ _ hi (fun j hne hj => absurd hj (halone rfl j hne)) ?_ ?_
      · cases res with
        | true => exact fun hholds => nomatch hholds
        | false => exact fun hholds => nomatch hholds
      · cases res with
        | true => exact hpc.1
        | false => trivial
    · have hgoes : s.work i m o (.hashing a x pc) =
          some ({ s with lc := (hashStep s.lc m a.mux x o pc).1 }.goes i m
            (.hashing a x (hashStep s.lc m a.mux x o pc).2)) := by
        cases pc with
        | release res => exact absurd ⟨res, rfl⟩ hlast
        | _ => rfl
      rw [hgoes] at hwork
      obtain rfl := Option.some.inj hwork
      exact h.goes _ _ hi (fun j hne hj => absurd hj (halone rfl j hne)) (fun _ => hturn rfl)
        ⟨hpc.1, hpc.2.1, hashStep_filled o hpc.2.2⟩
  | answering a x login pc =>
    by_cases hlast : pc = .release
    · subst hlast
      obtain rfl := Option.some.inj hwork
      exact h.goes _ _ hi (fun j hne hj => absurd hj (halone rfl j hne)) (fun hholds => nomatch hholds) hpc.1
    · have hgoes : s.work i m o (.answering a x login pc) =
          some ({ s with lc := (uiStep s.lc m a.mux x login pc).1 }.goes i m
            (.answering a x login (uiStep s.lc m a.mux x login pc).2)) := by
        cases pc with
        | release => exact absurd rfl hlast
        | _ => rfl
      rw [hgoes] at hwork
      obtain rfl := Option.some.inj hwork
      exact h.goes _ _ hi (fun j hne hj => absurd hj (halone rfl j hne)) (fun _ => hturn rfl) ⟨hpc.1, hpc.2.1, uiStep_filled hpc.2.2⟩
  | _ => cases hwork

theorem kept_handleLoginError (lc : LoginConfigHandler sha256 kept) (err : String) :
    Kept lc (lc.handleLoginError err).1 := by
  unfold LoginConfigHandler.handleLoginError
  split_ifs
  · exact ⟨rfl, rfl, rfl⟩
  · exact .refl lc
  · exact .refl lc
  · exact .refl lc

theorem kept_update (lc : LoginConfigHandler sha256 kept) (update : Update sha256 kept) :
    Kept lc (lc.update update) := by
  cases update <;> exact ⟨rfl, rfl, rfl⟩

theorem Inv.takes (h : s.Inv) {i : Nat} {m : Mapping sha256 kept} {a : Attempt}
    (hi : s.mappings[i]? = some m) (hat : m.pc = .selecting a) (msg : PeerMessage) :
    (s.takes i m a msg).Inv := by
  have hcoherent : a.Coherent := by
    have hpc := h.filled i m hi
    rw [hat] at hpc
    exact hpc
  cases msg with
  | hash x =>
    obtain ⟨hfree, hfilled⟩ := a.hashArrived_filled s.lc m.target x
    exact h.moves hi hfree hfilled
  | loginError err =>
    refine h.goes _ _ hi ?_ ?_ ?_
    · intro j _ hj
      exact ⟨hj, kept_handleLoginError s.lc err⟩
    · dsimp only
      split
      · exact fun hholds => nomatch hholds
      · exact fun hholds => nomatch hholds
    · dsimp only
      split
      · exact hcoherent
      · trivial
  | peerInfo => exact h.moves hi rfl trivial
  | other => exact h.moves hi rfl hcoherent

theorem Inv.step (h : s.Inv) {e : Event sha256 kept} (hstep : s.step e = some s') : s'.Inv := by
  cases e with
  | add remoteHost remotePort preset =>
    obtain rfl := Option.some.inj hstep
    constructor
    · intro j x hj hholds
      obtain hj | ⟨-, rfl⟩ := getElem?_append_singleton hj
      · exact h.turn j x hj hholds
      · cases hholds
    · intro j x hj
      obtain hj | ⟨-, rfl⟩ := getElem?_append_singleton hj
      · exact h.filled j x hj
      · trivial
  | accept i mux =>
    obtain ⟨m, hi, hstep⟩ := Option.bind_eq_some_iff.mp hstep
    split at hstep
    · obtain rfl := Option.some.inj hstep
      exact h.moves hi rfl trivial
    · cases hstep
  | started i res =>
    obtain ⟨m, hi, hstep⟩ := Option.bind_eq_some_iff.mp hstep
    split at hstep
    · obtain rfl := Option.some.inj hstep
      cases res with
      | failed => exact h.moves hi rfl trivial
      | insecure => exact h.moves hi rfl ⟨rfl, rfl, fun t ht => nomatch ht⟩
      | secured => exact h.moves hi rfl ⟨rfl, fun hsome => nomatch hsome⟩
    · cases hstep
  | send i data =>
    obtain ⟨m, hi, rfl⟩ := Option.map_eq_some_iff.mp hstep
    refine h.goes s.lc s.turn hi ?_ (h.turn i m hi) (h.filled i m hi)
    intro j _ hj
    exact ⟨hj, .refl s.lc⟩
  | recv i =>
    obtain ⟨m, hi, hstep⟩ := Option.bind_eq_some_iff.mp hstep
    split at hstep
    · obtain ⟨pc, hreceive, rfl⟩ := Option.map_eq_some_iff.mp hstep
      obtain ⟨hfree, hfilled⟩ := (h.filled i m hi).receive hreceive
      exact h.moves hi hfree hfilled
    · cases hstep
  | peer i msg =>
    obtain ⟨m, hi, hstep⟩ := Option.bind_eq_some_iff.mp hstep
    split at hstep
    · next a hat =>
      obtain rfl := Option.some.inj hstep
      exact h.takes hi hat msg
    · cases hstep
  | ends i =>
    obtain ⟨m, hi, hstep⟩ := Option.bind_eq_some_iff.mp hstep
    split at hstep
    · obtain rfl := Option.some.inj hstep
      exact h.moves hi rfl trivial
    · cases hstep
  | runs i o =>
    obtain ⟨m, hi, hwork⟩ := Option.bind_eq_some_iff.mp hstep
    exact h.work hi hwork
  | elsewhere update =>
    obtain rfl := Option.some.inj hstep
    exact ⟨h.turn, fun i m hi => (h.filled i m hi).frame fun _ => kept_update s.lc update⟩

theorem inv_of_exec {history : List (PortForwardWindow sha256 kept × Event sha256 kept)}
    (hx : Exec Init PortForwardWindow.step history s) : s.Inv := by
  refine hx.invariant (I := Inv) ?_ fun _ _ _ h hstep => h.step hstep
  rintro s ⟨-, hnone⟩
  constructor
  · intro i m hi
    rw [hnone] at hi
    cases hi
  · intro i m hi
    rw [hnone] at hi
    cases hi

/-! ## What the mappings send -/

/-- A login request goes out on a mapping's connection: it names the mapping's target and flag, and its
password is none, or a salted one hashed with the challenge of the connection's latest `Hash`. -/
def OwnLogin (s : PortForwardWindow sha256 kept) : Event sha256 kept → Prop
  | .runs i _ => ∀ (m : Mapping sha256 kept) (a : Attempt) (request : LoginRequest),
      s.mappings[i]? = some m → m.pc.sends = some (a, request) →
        ∃ h, a.challenge = some h ∧ Own sha256 kept (m.remoteHost, m.remotePort) a.mux h request
  | _ => True

/-- The password typed last before a `Hash` answers it, and a login with a typed password carries it. -/
def Answered (s : PortForwardWindow sha256 kept) : Event sha256 kept → Prop
  | .peer i (.hash h) => ∀ (m : Mapping sha256 kept) (a : Attempt) (t : Typed),
      s.mappings[i]? = some m → m.pc = .selecting a → a.typed = some t →
        ∃ a' : Attempt, (a.hashArrived h : Pc sha256 kept) = .waits a' (.ui h t.login)
  | .runs i _ => ∀ (m : Mapping sha256 kept) (a : Attempt) (h : Hash) (login : UiLogin)
      (request : LoginRequest), s.mappings[i]? = some m →
        m.pc = .answering a h login (.send request) → DigestOf sha256 h login request.password
  | _ => True

/-- The password typed last before a `Hash` did not come while the mapping waited for a word on the
insecure connection. -/
def Heard (s : PortForwardWindow sha256 kept) : Event sha256 kept → Prop
  | .peer i (.hash _) => ∀ (m : Mapping sha256 kept) (a : Attempt) (t : Typed),
      s.mappings[i]? = some m → m.pc = .selecting a → a.typed = some t → t.confirming = false
  | _ => True

theorem Inv.ownLogin (h : s.Inv) (e : Event sha256 kept) : s.OwnLogin e := by
  cases e with
  | runs i o =>
    intro m a request hi hsends
    have hpc := h.filled i m hi
    generalize m.pc = pc at hpc hsends
    cases pc with
    | hashing b x pc =>
      cases pc with
      | sendSwitch r =>
        cases hsends
        exact ⟨x, hpc.2.1, hpc.2.2⟩
      | send r =>
        cases hsends
        exact ⟨x, hpc.2.1, hpc.2.2⟩
      | _ => cases hsends
    | answering b x login pc =>
      cases pc with
      | send r =>
        cases hsends
        exact ⟨x, hpc.2.1, hpc.2.2.1⟩
      | _ => cases hsends
    | _ => cases hsends
  | _ => trivial

theorem Inv.answered_iff (h : s.Inv) (e : Event sha256 kept) : s.Answered e ↔ s.Heard e := by
  cases e with
  | peer i msg =>
    cases msg with
    | hash x =>
      have hcoherent : ∀ (m : Mapping sha256 kept) (a : Attempt), s.mappings[i]? = some m →
          m.pc = .selecting a → a.Coherent := by
        intro m a hi hat
        have hpc := h.filled i m hi
        rw [hat] at hpc
        exact hpc
      constructor
      · intro hanswered m a t hi hat ht
        exact ((hcoherent m a hi hat).answers_iff ht x).mp (hanswered m a t hi hat ht)
      · intro hheard m a t hi hat ht
        exact ((hcoherent m a hi hat).answers_iff ht x).mpr (hheard m a t hi hat ht)
    | _ => exact Iff.rfl
  | runs i o =>
    refine ⟨fun _ => trivial, fun _ => ?_⟩
    intro m a x login request hi hat
    have hpc := h.filled i m hi
    rw [hat] at hpc
    exact hpc.2.2.2
  | _ => exact Iff.rfl

/-- In every run every login request is the mapping's own, and the password typed last before a `Hash`
answers it exactly where it did not come while the mapping waited for a word on the insecure
connection. -/
theorem logs_in_as_itself {history : List (PortForwardWindow sha256 kept × Event sha256 kept)}
    (hx : Exec Init PortForwardWindow.step history s) :
    ∀ p ∈ history, p.1.OwnLogin p.2 ∧ (p.1.Answered p.2 ↔ p.1.Heard p.2) := by
  intro p hp
  obtain ⟨older, hpast, -⟩ := hx.mem hp
  have hinv := inv_of_exec hpast
  exact ⟨hinv.ownLogin p.2, hinv.answered_iff p.2⟩

end PortForwardWindow

end Logins

/-! A password typed before the `Hash`, and one typed before the user has said to go on. -/

section OneMapping

open PortForwardWindow

/-- SHA-256 of `pwsalt`. -/
def saltedDigest : Bytes :=
  [254, 80, 2, 227, 161, 186, 72, 169, 130, 247, 195, 31, 236, 114, 6, 93, 27, 69, 21, 71, 206, 34, 144,
    167, 102, 186, 71, 123, 254, 195, 33, 130]

/-- SHA-256 of `saltedDigest` and `a`. -/
def answerDigest : Bytes :=
  [205, 11, 23, 115, 40, 95, 249, 69, 131, 175, 87, 241, 200, 35, 215, 157, 216, 9, 147, 252, 77, 244, 112,
    232, 248, 231, 134, 31, 151, 83, 0, 152]

def peerHash : Hash := ⟨[115, 97, 108, 116], [97]⟩

def typedLogin : UiLogin := ⟨[112, 119], false⟩

/-- SHA-256 at the two inputs of the run. -/
def sha256Here (bytes : Bytes) : Bytes :=
  if bytes = typedLogin.password ++ peerHash.salt then saltedDigest
  else if bytes = saltedDigest ++ peerHash.challenge then answerDigest else []

def keptNone : Bytes → Prop := fun _ => False

def newWindow : PortForwardWindow sha256Here keptNone where
  lc :=
    { portForward := ("", 0), portForwardMultiplex := false, hash := ⟨[], []⟩, password := .empty
      remember := false, configPassword := .empty, passwordSource := .undefined, sharedPassword := none
      switchUuid := none, switchBackAllowed := false }

def plainOutside : Outside sha256Here keptNone := ⟨false, false, .empty, []⟩

/-- The password comes while the connection's `Hash` is on its way. -/
def typedEarly : List (Event sha256Here keptNone) :=
  [.add "a" 1 [], .accept 0 false, .started 0 .secured, .send 0 (.login typedLogin), .recv 0,
    .peer 0 (.hash peerHash), .runs 0 plainOutside, .runs 0 plainOutside, .runs 0 plainOutside,
    .runs 0 plainOutside, .runs 0 plainOutside, .runs 0 plainOutside, .runs 0 plainOutside,
    .runs 0 plainOutside]

theorem typedEarly_runs : (trace PortForwardWindow.step newWindow typedEarly).isSome = true := by
  decide +kernel

theorem logs_in_as_itself_early :
    ∃ t : PortForwardWindow sha256Here keptNone, Reachable Init PortForwardWindow.step t ∧
      (t.mappings[0]?.bind fun m => m.pc.sends).map Prod.snd = some ⟨"a", 1, false, answerDigest⟩ ∧
      t.OwnLogin (.runs 0 plainOutside) ∧ t.Answered (.runs 0 plainOutside) := by
  have hstart : Exec Init PortForwardWindow.step [] newWindow := .start ⟨rfl, rfl⟩
  have hrun := hstart.trace (Option.some_get typedEarly_runs).symm
  have hnext := hrun.snoc (e := .runs 0 plainOutside) (Option.some_get (by decide +kernel)).symm
  obtain ⟨hown, hanswered⟩ := logs_in_as_itself hnext _ (List.mem_cons_self ..)
  exact ⟨_, ⟨_, hrun⟩, by decide +kernel, hown, hanswered.mpr trivial⟩

/-- The password comes before the user has agreed to the insecure connection. -/
def typedAtPrompt : List (Event sha256Here keptNone) :=
  [.add "b" 2 [], .accept 0 false, .started 0 .insecure, .send 0 (.login typedLogin), .recv 0,
    .send 0 .continueInsecureConnection, .recv 0]

theorem typedAtPrompt_runs : (trace PortForwardWindow.step newWindow typedAtPrompt).isSome = true := by
  decide +kernel

/-- The `Hash` that then comes is answered as if no password had been typed. -/
theorem typed_password_lost :
    ¬ ∀ (history : List (PortForwardWindow sha256Here keptNone × Event sha256Here keptNone))
      (s : PortForwardWindow sha256Here keptNone), Exec Init PortForwardWindow.step history s →
        ∀ p ∈ history, p.1.OwnLogin p.2 ∧ p.1.Answered p.2 := by
  intro h
  have hstart : Exec Init PortForwardWindow.step [] newWindow := .start ⟨rfl, rfl⟩
  have hrun := hstart.trace (Option.some_get typedAtPrompt_runs).symm
  have hnext := hrun.snoc (e := .peer 0 (.hash peerHash)) (Option.some_get (by decide +kernel)).symm
  obtain ⟨-, hanswered⟩ := h _ _ hnext _ (List.mem_cons_self ..)
  obtain ⟨a', heq⟩ := hanswered _ _ ⟨typedLogin, true⟩ rfl rfl rfl
  cases heq

end OneMapping

end FontisRemote.PortForward
