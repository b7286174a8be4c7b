import FontisRemote.Connection.Authorization
import FontisRemote.Lib.Framing

/-!
# The scope of a connection is latched

The first login request of a connection fixes who asks and for what: a later request is taken in only
if its digest is the same, and the digest is that of a text from which the id, the kind and the
parameters can be read back. Between requests the scope of the connection is the one the first request
asked for (`Latch`), and the session runs in that scope once it is authorized.
-/

namespace FontisRemote.Connection

open FontisRemote.Lib FontisRemote.Login

/-! ## The text that is hashed -/

section Digest

theorem length_u64LeBytes (n : Nat) : (u64LeBytes n).length = 8 := by
  simp [u64LeBytes]

/-- The bytes of two numbers agree digit by digit. -/
theorem digits_of_bytes {width n m : Nat}
    (h : (List.range width).map (fun i => UInt8.ofNat (n / 256 ^ i)) =
      (List.range width).map fun i => UInt8.ofNat (m / 256 ^ i)) :
    ∀ i < width, n / 256 ^ i % 256 = m / 256 ^ i % 256 := by
  intro i hi
  have hb := List.map_inj_left.1 h i (List.mem_range.2 hi)
  simpa using congrArg UInt8.toNat hb

theorem u64LeBytes_inj (n m : Nat) (hn : n < 2 ^ 64) (hm : m < 2 ^ 64)
    (h : u64LeBytes n = u64LeBytes m) : n = m :=
  @eq_of_digits 256 _ _ 8 (by simpa using hn) (by simpa using hm) (digits_of_bytes h)

theorem i32LeBytes_inj {n m : Int32} (h : i32LeBytes n = i32LeBytes m) : n = m := by
  have hn : n.toBitVec.toNat = m.toBitVec.toNat :=
    @eq_of_digits 256 _ _ 4 n.toBitVec.isLt m.toBitVec.isLt (digits_of_bytes h)
  exact Int32.toBitVec_inj.1 (BitVec.eq_of_toNat_eq hn)

theorem pushField_inj {a b x y : Bytes} (ha : a.length < 2 ^ 64) (hb : b.length < 2 ^ 64)
    (h : pushField a ++ x = pushField b ++ y) : a = b ∧ x = y :=
  prefixed_inj length_u64LeBytes u64LeBytes_inj ha hb h

theorem Text.length_bytes (t : Text) : t.bytes.length < 2 ^ 64 :=
  t.2.trans (by decide)

theorem Text.bytes_inj {s t : Text} (h : s.bytes = t.bytes) : s = t := by
  refine Subtype.ext (String.toByteArray_inj.1 ?_)
  exact ByteArray.ext (Array.toList_inj.1 h)

/-- The name of the kind of session, and its parameters. -/
def unionFields : Option LoginUnion → List Bytes
  | some (.fileTransfer dir showHidden) => [utf8 "file_transfer", dir.bytes, boolByte showHidden]
  | some .viewCamera => [utf8 "view_camera"]
  | some (.terminal serviceId) => [utf8 "terminal", serviceId.bytes]
  | some (.portForward pf) =>
    [utf8 "port_forward", pf.host.bytes, i32LeBytes pf.port, boolByte pf.multiplex]
  | none => [utf8 "remote"]

theorem loginScopeInput_eq (lr : LoginRequest) :
    loginScopeInput lr = ((lr.myId.bytes :: unionFields lr.union).map pushField).flatten := by
  unfold loginScopeInput
  rcases lr.union with _ | (⟨dir, showHidden⟩ | _ | serviceId | pf) <;> simp [unionFields]

/-- Fields that all have room for their length are read back. -/
theorem pushFields_inj {as bs : List Bytes} (ha : ∀ a ∈ as, a.length < 2 ^ 64)
    (hb : ∀ b ∈ bs, b.length < 2 ^ 64) (h : (as.map pushField).flatten = (bs.map pushField).flatten) :
    as = bs := by
  induction as generalizing bs with
  | nil =>
    cases bs with
    | nil => rfl
    | cons b bs => simp [pushField, u64LeBytes] at h
  | cons a as ih =>
    cases bs with
    | nil => simp [pushField, u64LeBytes] at h
    | cons b bs =>
      rw [List.map_cons, List.map_cons, List.flatten_cons, List.flatten_cons] at h
      obtain ⟨rfl, hrest⟩ := pushField_inj (ha a (List.mem_cons_self ..)) (hb b (List.mem_cons_self ..)) h
      rw [ih (fun x hx => ha x (List.mem_cons_of_mem _ hx))
        (fun x hx => hb x (List.mem_cons_of_mem _ hx)) hrest]

theorem boolByte_inj {a b : Bool} (h : boolByte a = boolByte b) : a = b := by
  revert h
  cases a <;> cases b <;> decide

theorem unionFields_length (u : Option LoginUnion) : ∀ a ∈ unionFields u, a.length < 2 ^ 64 := by
  have hbool : ∀ b, (boolByte b).length < 2 ^ 64 := fun _ => by simp [boolByte]
  have hport : ∀ n, (i32LeBytes n).length < 2 ^ 64 := fun _ => by simp [i32LeBytes]
  have hnil : ∀ x ∈ ([] : List Bytes), x.length < 2 ^ 64 := fun _ hx => (nomatch hx)
  rcases u with _ | (⟨dir, showHidden⟩ | _ | serviceId | pf) <;>
    simp only [unionFields, List.forall_mem_cons]
  · exact ⟨by decide, hnil⟩
  · exact ⟨by decide, dir.length_bytes, hbool showHidden, hnil⟩
  · exact ⟨by decide, hnil⟩
  · exact ⟨by decide, serviceId.length_bytes, hnil⟩
  · exact ⟨by decide, pf.host.length_bytes, hport pf.port, hbool pf.multiplex, hnil⟩

/-- The kinds of session have different names. -/
theorem unionFields_inj {u v : Option LoginUnion} (h : unionFields u = unionFields v) : u = v := by
  have hlen := congrArg List.length h
  have hhead := congrArg List.head? h
  rcases u with _ | (⟨dir, showHidden⟩ | _ | serviceId | ⟨host, port, multiplex⟩) <;>
    rcases v with _ | (⟨dir', showHidden'⟩ | _ | serviceId' | ⟨host', port', multiplex'⟩) <;>
    first
    | rfl
    | (simp [unionFields] at hlen; done)
    | skip
  · exact absurd hhead (by decide)
  · simp only [unionFields, List.cons.injEq, true_and, and_true] at h
    rw [Text.bytes_inj h.1, boolByte_inj h.2]
  · exact absurd hhead (by decide)
  · simp only [unionFields, List.cons.injEq, true_and, and_true] at h
    rw [Text.bytes_inj h]
  · simp only [unionFields, List.cons.injEq, true_and, and_true] at h
    rw [Text.bytes_inj h.1, i32LeBytes_inj h.2.1, boolByte_inj h.2.2]

/-- Two login requests have the same text to be hashed exactly if the same id asks for the same kind
of session with the same parameters. -/
theorem loginScopeInput_eq_iff {a b : LoginRequest} :
    loginScopeInput a = loginScopeInput b ↔ a.myId = b.myId ∧ a.union = b.union := by
  rw [loginScopeInput_eq, loginScopeInput_eq]
  constructor
  · intro h
    have h := pushFields_inj ?_ ?_ h
    · obtain ⟨hid, hu⟩ := List.cons.inj h
      exact ⟨Text.bytes_inj hid, unionFields_inj hu⟩
    · rintro x (_ | ⟨_, hx⟩)
      · exact a.myId.length_bytes
      · exact unionFields_length _ x hx
    · rintro x (_ | ⟨_, hx⟩)
      · exact b.myId.length_bytes
      · exact unionFields_length _ x hx
  · rintro ⟨hid, hu⟩
    rw [hid, hu]

end Digest

/-! ## The latch -/

/-- The request was received on the connection. -/
def Asks (h : History) (i : Nat) (lr : LoginRequest) : Prop :=
  ∃ p ∈ h, ∃ e, p.2 = .conn i e (.recv (.loginRequest lr))

/-- The first login request received on the connection. -/
def FirstLogin (i : Nat) (h : History) (lr : LoginRequest) : Prop :=
  ∃ newer w e older, h = newer ++ (w, .conn i e (.recv (.loginRequest lr))) :: older ∧
    ∀ p ∈ older, ¬p.2.IsLogin i

/-- No two login requests of the connection collide. -/
def CollisionFree (k : Crypto) (h : History) (i : Nat) : Prop :=
  ∀ a b, Asks h i a → Asks h i b → loginScopeDigest k a = loginScopeDigest k b →
    loginScopeInput a = loginScopeInput b

/-- The scope a request asks for, before the connection is let in and after. -/
def SessionScope.pending (lr : LoginRequest) : SessionScope := ({} : SessionScope).requested lr

def SessionScope.ofRequest (lr : LoginRequest) : SessionScope :=
  match lr.union with
  | some (.fileTransfer dir showHidden) => { fileTransfer := some (dir.1, showHidden) }
  | some .viewCamera => { viewCamera := true }
  | some (.terminal serviceId) => { terminal := true, terminalServiceId := serviceId.1 }
  | some (.portForward pf) =>
    let target := (normalizePortForwardTarget pf).1
    { portForwardAddress := target
      mux := if pf.multiplex then some target else none
      socket := if pf.multiplex then none else some target }
  | none => {}

/-- What the first login request of a connection has fixed. -/
structure Latch (k : Crypto) (h : History) (i : Nat) (c : Conn) : Prop where
  fresh : c.login.authorized = false → c.phase ≠ .ended → c.login.loginScope = none →
    c.scope = {} ∧ c.login.lr.union = none ∧ ∀ p ∈ h, ¬p.2.IsLogin i
  taken : c.login.authorized = false → c.phase ≠ .ended → ∀ d, c.login.loginScope = some d →
    ∃ lr, FirstLogin i h lr ∧ d = loginScopeDigest k lr ∧ c.login.lr.myId = lr.myId ∧
      c.login.lr.union = lr.union ∧ c.scope = .pending lr

section Latch

variable {k : Crypto} {b : Build} {i : Nat} {h : History} {w : World} {e : Env} {c c' : Conn}
  {sh' : Shared} {ev : ConnEvent} {p : World × Event} {lr : LoginRequest}

theorem FirstLogin.asks (hf : FirstLogin i h lr) : Asks h i lr := by
  obtain ⟨newer, w, e, older, rfl, -⟩ := hf
  exact ⟨_, List.mem_append_right _ (List.mem_cons_self ..), e, rfl⟩

theorem FirstLogin.cons (hf : FirstLogin i h lr) : FirstLogin i (p :: h) lr := by
  obtain ⟨newer, w, e, older, rfl, hold⟩ := hf
  exact ⟨p :: newer, w, e, older, rfl, hold⟩

theorem firstLogin_self (hno : ∀ p ∈ h, ¬p.2.IsLogin i) :
    FirstLogin i ((w, .conn i e (.recv (.loginRequest lr))) :: h) lr :=
  ⟨[], w, e, h, rfl, hno⟩

theorem FirstLogin.unique {lr' : LoginRequest} (hf : FirstLogin i h lr) (hf' : FirstLogin i h lr') :
    lr = lr' := by
  induction h with
  | nil =>
    obtain ⟨newer, w, e, older, hh, -⟩ := hf
    simp at hh
  | cons p h ih =>
    obtain ⟨newer, w, e, older, hh, hold⟩ := hf
    obtain ⟨newer', w', e', older', hh', hold'⟩ := hf'
    cases newer with
    | nil =>
      obtain ⟨rfl, rfl⟩ := List.cons.inj hh
      cases newer' with
      | nil =>
        obtain ⟨heq, -⟩ := List.cons.inj hh'
        cases heq
        rfl
      | cons q newer' =>
        obtain ⟨-, rfl⟩ := List.cons.inj hh'
        exact absurd ⟨e', lr', rfl⟩ (hold _ (List.mem_append_right _ (List.mem_cons_self ..)))
    | cons q newer =>
      obtain ⟨-, rfl⟩ := List.cons.inj hh
      cases newer' with
      | nil =>
        obtain ⟨rfl, rfl⟩ := List.cons.inj hh'
        exact absurd ⟨e, lr, rfl⟩ (hold' _ (List.mem_append_right _ (List.mem_cons_self ..)))
      | cons q' newer' =>
        obtain ⟨-, hh'⟩ := List.cons.inj hh'
        exact ih ⟨newer, w, e, older, rfl, hold⟩ ⟨newer', w', e', older', hh', hold'⟩

theorem CollisionFree.older (hfree : CollisionFree k (p :: h) i) : CollisionFree k h i := by
  rintro a b ⟨q, hq, e, hqe⟩ ⟨q', hq', e', hqe'⟩
  exact hfree a b ⟨q, List.mem_cons_of_mem _ hq, e, hqe⟩ ⟨q', List.mem_cons_of_mem _ hq', e', hqe'⟩

theorem CollisionFree.of_one (lr : LoginRequest) (hone : ∀ a, Asks h i a → a = lr) :
    CollisionFree k h i := by
  intro a b ha hb _
  rw [hone a ha, hone b hb]

/-- A request for what the first one asked for changes nothing in the scope. -/
theorem pending_requested {lr' : LoginRequest} (hu : lr'.union = lr.union) :
    (SessionScope.pending lr).requested lr' = .pending lr := by
  unfold SessionScope.pending SessionScope.requested
  rw [hu]
  cases lr.union with
  | none => rfl
  | some u => cases u <;> rfl

/-- A step that is not on the connection. -/
theorem Latch.other (hl : Latch k h i c) (hp : ¬p.2.IsLogin i) : Latch k (p :: h) i c where
  fresh hun hlive hnone := by
    obtain ⟨hsc, hu, hno⟩ := hl.fresh hun hlive hnone
    refine ⟨hsc, hu, fun q hq => ?_⟩
    rcases List.mem_cons.1 hq with rfl | hq
    · exact hp
    · exact hno q hq
  taken hun hlive d hd := by
    obtain ⟨lr, hf, hrest⟩ := hl.taken hun hlive d hd
    exact ⟨lr, hf.cons, hrest⟩

theorem Latch.same (hl : Latch k h i c) (hlogin : ∃ t r q, c'.login =
      { c.login with terminalUserToken := t, require2fa := r, awaiting2fa := q })
    (hscope : c'.scope = c.scope) (hlive : c.phase ≠ .ended) : Latch k h i c' := by
  obtain ⟨t, r, q, hlogin⟩ := hlogin
  refine ⟨fun hun _ hnone => ?_, fun hun _ d hd => ?_⟩
  · rw [hlogin] at hun hnone ⊢
    rw [hscope]
    exact hl.fresh hun hlive hnone
  · rw [hlogin] at hun hd ⊢
    rw [hscope]
    exact hl.taken hun hlive d hd

theorem Latch.of_authorized (hauth : c'.login.authorized = true) : Latch k h i c' :=
  ⟨fun hun => absurd (hauth.symm.trans hun) (by simp), fun hun => absurd (hauth.symm.trans hun) (by simp)⟩

theorem Latch.of_ended (hph : c'.phase = .ended) : Latch k h i c' :=
  ⟨fun _ hlive => absurd hph hlive, fun _ hlive => absurd hph hlive⟩

/-- A request that is taken in is the first one, or asks for the same. -/
theorem Latch.took {m : Option Matched} (hl : Latch k h i c) (hun : c.login.authorized = false)
    (hlive : c.phase ≠ .ended)
    (hfree : CollisionFree k ((w, .conn i e (.recv (.loginRequest lr))) :: h) i)
    (ht : Took k e lr m (c.clear e) c') :
    Latch k ((w, .conn i e (.recv (.loginRequest lr))) :: h) i c' := by
  obtain ⟨t, hlogin⟩ := ht.near.login
  have hscope : c'.scope = c.scope.requested lr := ht.near.scope
  have hd : c'.login.loginScope = some (loginScopeDigest k lr) := by
    rw [hlogin]
    rfl
  have hlr : c'.login.lr = lr := by
    rw [hlogin]
    rfl
  refine ⟨fun _ _ hnone => ?_, fun _ _ d hd' => ?_⟩
  · rw [hd] at hnone
    cases hnone
  rw [hd] at hd'
  cases hd'
  rw [hlr, hscope]
  rcases ht.latched with hnone | hsome
  · obtain ⟨hsc, -, hno⟩ := hl.fresh hun hlive hnone
    exact ⟨lr, firstLogin_self hno, rfl, rfl, rfl, by rw [hsc]; rfl⟩
  · obtain ⟨lr₀, hf, heq, -, -, hsc⟩ := hl.taken hun hlive _ hsome
    have hinput := hfree lr lr₀ ⟨_, List.mem_cons_self .., e, rfl⟩ hf.cons.asks heq
    obtain ⟨hid, hu⟩ := loginScopeInput_eq_iff.1 hinput
    exact ⟨lr₀, hf.cons, heq, hid, hu, by rw [hsc, pending_requested hu]⟩

/-- A decision keeps the latch: the address of a connect that is waited for is the one asked for. -/
theorem Latch.decides {kont : Kont} {sh : Shared} (hl : Latch k h i c) (hrun : c.phase = .running)
    (hd : Decides b e kont sh c sh' c') : Latch k h i c' := by
  have hlive : c.phase ≠ .ended := by simp [hrun]
  cases hd with
  | second _ near =>
    obtain ⟨t, hlogin⟩ := near.login
    exact hl.same ⟨t, _, _, hlogin⟩ near.scope hlive
  | refused gone _ => exact .of_ended gone.phase
  | @waits _ _ pf _ union _ near _ =>
    obtain ⟨t, hlogin⟩ := near.login
    refine ⟨fun hun _ hnone => ?_, fun hun _ d hd => ?_⟩
    · rw [hlogin] at hun hnone
      obtain ⟨-, hu, -⟩ := hl.fresh hun hlive hnone
      rw [hu] at union
      cases union
    · rw [hlogin] at hun hd ⊢
      obtain ⟨lr, hf, heq, hid, hu, hsc⟩ := hl.taken hun hlive d hd
      refine ⟨lr, hf, heq, hid, hu, ?_⟩
      rw [near.scope, hsc]
      unfold SessionScope.pending SessionScope.requested
      rw [← hu, union]
  | @granted sh₀ c₁ _ _ _ _ =>
    obtain ⟨o, hlogin⟩ := @grant_login b e kont sh₀ c₁
    exact .of_authorized (congrArg Login.authorized hlogin)

theorem Latch.start (m : Meta) (hno : ∀ p ∈ h, ¬p.2.IsLogin i) : Latch k h i (Conn.start i m) :=
  ⟨fun _ _ _ => ⟨rfl, rfl, hno⟩, fun _ _ _ hd => (nomatch hd)⟩

theorem Latch.step_plain (hl : Latch k h i c) (hplain : ¬ev.IsLogin) :
    Latch k ((w, .conn i e ev) :: h) i c :=
  hl.other fun hlog => hplain (isLogin_iff.1 hlog).2

theorem Latch.turn (hl : Latch k h i c) (hfree : CollisionFree k ((w, .conn i e ev) :: h) i)
    (ht : Turn k b e w.shared (c.clear e) ev sh' c') : Latch k ((w, .conn i e ev) :: h) i c' := by
  -- the connection entering the decision of a code or of the connection manager
  have hwaived : ∀ {ev'}, ¬ev'.IsLogin → c.phase = .running → Latch k ((w, .conn i e ev') :: h) i
      { (c.clear e) with login := { (c.clear e).login with require2fa := none } } :=
    fun hplain hrun => (hl.step_plain hplain).same ⟨_, none, _, rfl⟩ rfl (by simp [hrun])
  cases ht with
  | quiet _ plain near _ =>
    obtain ⟨t, hlogin⟩ := near.login
    by_cases hauth : c.login.authorized = true
    · exact .of_authorized (near.authorized.trans hauth)
    · by_cases hend : c.phase = .ended
      · exact .of_ended (near.phase.trans hend)
      · exact (hl.step_plain fun hp => hauth (plain hp)).same ⟨t, _, _, hlogin⟩ near.scope hend
  | forwards _ authorized near _ => exact .of_authorized (near.authorized.trans authorized)
  | gone gone _ => exact .of_ended gone.phase
  | message _ authorized _ same _ => exact .of_authorized (same ▸ authorized)
  | permission running _ same =>
    have hrun : c.phase = .running := running
    rw [same]
    exact (hl.step_plain id).same ⟨_, _, _, rfl⟩ rfl (by simp [hrun])
  | calls running plain _ same =>
    have hrun : c.phase = .running := running
    rw [same]
    exact (hl.step_plain plain).same ⟨_, _, _, rfl⟩ rfl (by simp [hrun])
  | asked running waiting took _ =>
    have hrun : c.phase = .running := running
    exact hl.took waiting (by simp [hrun]) hfree took
  | login running waiting _ _ took decides =>
    have hrun : c.phase = .running := running
    exact (hl.took waiting (by simp [hrun]) hfree took).decides (took.near.phase.trans hrun) decides
  | code running _ _ _ _ _ decides => exact (hwaived id running).decides running decides
  | approved running _ decides => exact (hwaived id running).decides running decides
  | switched _ _ switches near decides =>
    obtain ⟨t, hlogin⟩ := near.login
    cases decides with
    | second needs _ =>
      have hsw := needs.2.2
      rw [hlogin] at hsw
      cases hsw
    | refused gone _ => exact .of_ended gone.phase
    | waits _ union _ _ _ =>
      rw [hlogin] at union
      cases switches.union.symm.trans union
    | @granted sh₀ c₂ _ _ _ _ =>
      obtain ⟨o, hgrant⟩ := @grant_login b e .switchSides sh₀ c₂
      exact .of_authorized (congrArg Login.authorized hgrant)
  | again _ authorized _ near _ => exact .of_authorized (near.authorized.trans authorized)
  | waives _ authorized _ near => exact .of_authorized (near.authorized.trans authorized)
  | @connected kont _ _ _ same =>
    obtain ⟨o, hgrant⟩ := @grant_login b e kont w.shared (c.clear e).connected
    refine .of_authorized ?_
    rw [same]
    exact congrArg Login.authorized hgrant

end Latch

/-! ## Runs -/

section Runs

variable {k : Crypto} {b : Build} {i : Nat} {h : History} {w w' : World} {ev : Event}
  {lr : LoginRequest}

/-- What has happened to a connection happened to one there is. -/
theorem lt_of_event (hx : Exec World.Init (World.step k b) h w) {p : World × Event} (hp : p ∈ h)
    {e : Env} {cev : ConnEvent} (hev : p.2 = .conn i e cev) : i < w.conns.length := by
  induction hx with
  | start _ => cases hp
  | snoc hx hstep ih =>
    rcases List.mem_cons.1 hp with rfl | hp
    · cases hev
      cases World.steps_of_step (World.wf_of_exec hx) hstep with
      | conn hc _ =>
        rw [List.length_set]
        exact (List.getElem?_eq_some_iff.1 hc).1
    · have hlt := ih hp
      cases World.steps_of_step (World.wf_of_exec hx) hstep with
      | start m =>
        rw [List.length_append]
        exact Nat.lt_add_right _ hlt
      | conn _ _ =>
        rw [List.length_set]
        exact hlt
      | insertSwitchSidesUuid now id uuid => exact hlt
      | updateTemporaryPassword value => exact hlt

/-- Every connection of a run is held to its first login request. -/
theorem latch_of_exec (hx : Exec World.Init (World.step k b) h w) :
    CollisionFree k h i → ∀ c, w.conns[i]? = some c → Latch k h i c := by
  induction hx with
  | start hi =>
    intro _ c hc
    rw [hi.1] at hc
    cases hc
  | @snoc h w w' ev hx hstep ih =>
    intro hfree c' hc'
    have hl := ih hfree.older
    have hwf := World.wf_of_exec hx
    cases World.steps_of_step hwf hstep with
    | start m =>
      rcases World.getElem?_concat hc' with ⟨rfl, rfl⟩ | hc'
      · refine .start m fun p hp hlog => ?_
        rcases List.mem_cons.1 hp with rfl | hp
        · obtain ⟨e, lr, hev⟩ := hlog
          cases hev
        · obtain ⟨e, lr, hev⟩ := hlog
          exact absurd (lt_of_event hx hp hev) (Nat.lt_irrefl _)
      · exact (hl c' hc').other fun ⟨_, _, hev⟩ => (nomatch hev)
    | @conn j e cev c c₁ sh' hc turn =>
      rcases getElem?_set_eq_some hc' with ⟨rfl, rfl⟩ | ⟨hne, hc'⟩
      · exact (hl c hc).turn hfree turn
      · exact (hl c' hc').other fun hlog => hne (isLogin_iff.1 hlog).1.symm
    | insertSwitchSidesUuid now id uuid =>
      exact (hl c' hc').other fun ⟨_, _, hev⟩ => (nomatch hev)
    | updateTemporaryPassword value =>
      exact (hl c' hc').other fun ⟨_, _, hev⟩ => (nomatch hev)

theorem opened_pending {lr' : LoginRequest} (hu : lr'.union = lr.union)
    (hm : ∀ pf, lr'.union = some (.portForward pf) → pf.multiplex = true) :
    (SessionScope.pending lr).opened lr' = .ofRequest lr := by
  unfold SessionScope.pending SessionScope.opened SessionScope.requested SessionScope.ofRequest
  rw [hu] at hm ⊢
  revert hm
  rcases lr.union with _ | (⟨dir, showHidden⟩ | _ | serviceId | pf) <;> intro hm
  · rfl
  · rfl
  · rfl
  · rfl
  · simp [hm pf rfl, SessionScope.resetForLogin]

/-- The scope a session runs in: that of the request, with the service a terminal was given if it
asked for none. -/
def RunsIn (lr : LoginRequest) (e : Env) (sc : SessionScope) : Prop :=
  ∃ id, sc = { SessionScope.ofRequest lr with terminalServiceId := id } ∧
    (id = (SessionScope.ofRequest lr).terminalServiceId ∨
      ∃ serviceId, lr.union = some (.terminal serviceId) ∧ serviceId.1 = "" ∧
        id = e.generatedServiceId)

theorem ofRequest_terminal (h : (SessionScope.ofRequest lr).terminal = true) :
    ∃ serviceId, lr.union = some (.terminal serviceId) ∧
      (SessionScope.ofRequest lr).terminalServiceId = serviceId.1 := by
  unfold SessionScope.ofRequest at h ⊢
  revert h
  rcases lr.union with _ | (⟨dir, showHidden⟩ | _ | serviceId | pf) <;> intro h
  · cases h
  · cases h
  · cases h
  · exact ⟨serviceId, rfl, rfl⟩
  · cases h

theorem grant_lr {e : Env} {kont : Kont} (sh : Shared) (c : Conn) :
    (grant b e kont sh c).login.lr = c.login.lr := by
  obtain ⟨o, hgrant⟩ := @grant_login b e kont sh c
  rw [hgrant]
  rfl

theorem runsIn_grant {e : Env} {kont : Kont} {sh : Shared} {c : Conn} (hsc : c.scope = .ofRequest lr) :
    RunsIn lr e (grant b e kont sh c).scope := by
  obtain ⟨id, hscope, hid⟩ := @grant_scope b e kont sh c
  rw [hsc] at hscope hid
  refine ⟨id, hscope, ?_⟩
  rcases hid with hid | ⟨hterm, hempty, hid⟩
  · exact .inl hid
  · obtain ⟨serviceId, hu, hserv⟩ := ofRequest_terminal hterm
    exact .inr ⟨serviceId, hu, hserv ▸ hempty, hid⟩

/-- A decision that authorizes does so in the scope that was asked for. -/
theorem Decides.runsIn {e : Env} {kont : Kont} {sh sh' : Shared} {c c' : Conn}
    (hd : Decides b e kont sh c sh' c') (hun : c.login.authorized = false)
    (hauth : c'.login.authorized = true) (hid : c.login.lr.myId = lr.myId)
    (hu : c.login.lr.union = lr.union) (hsc : c.scope = .pending lr) :
    c'.login.lr.myId = lr.myId ∧ c'.login.lr.union = lr.union ∧ RunsIn lr e c'.scope := by
  cases hd with
  | second _ near => exact absurd ((near.authorized.trans hun).symm.trans hauth) (by simp)
  | refused gone _ => exact absurd ((gone.authorized.trans hun).symm.trans hauth) (by simp)
  | waits _ _ _ near _ => exact absurd ((near.authorized.trans hun).symm.trans hauth) (by simp)
  | @granted sh₀ c₁ _ multiplex near _ =>
    obtain ⟨t, hlogin⟩ := near.login
    have hlr : c₁.login.lr = c.login.lr := by rw [hlogin]
    rw [grant_lr, hlr]
    refine ⟨hid, hu, runsIn_grant ?_⟩
    rw [near.scope]
    dsimp only
    rw [hsc, opened_pending hu multiplex]

/-- The connect that was waited for has been to the target that was asked for. -/
theorem connected_pending {c : Conn} {pf : PortForward} (hsc : c.scope = .pending lr)
    (hu : lr.union = some (.portForward pf)) (hm : pf.multiplex = false) :
    c.connected.scope = .ofRequest lr := by
  simp [Conn.connected, hsc, SessionScope.pending, SessionScope.requested, SessionScope.ofRequest, hu,
    hm, SessionScope.resetForLogin]

/-- What a connection that is not authorized yet has been asked for. -/
theorem Latch.first {c : Conn} (hl : Latch k h i c) (hun : c.login.authorized = false)
    (hlive : c.phase ≠ .ended) (hf : FirstLogin i h lr) :
    c.login.lr.myId = lr.myId ∧ c.login.lr.union = lr.union ∧ c.scope = .pending lr := by
  cases hd : c.login.loginScope with
  | none =>
    obtain ⟨p, hp, e, hev⟩ := hf.asks
    exact absurd ⟨e, lr, hev⟩ ((hl.fresh hun hlive hd).2.2 p hp)
  | some d =>
    obtain ⟨lr', hf', -, hid, hu, hsc⟩ := hl.taken hun hlive d hd
    rw [hf.unique hf']
    exact ⟨hid, hu, hsc⟩

/-- In every run, a connection that is authorized by a password, a code or the connection manager runs
for the id and in the scope of the first login request it received. The text that is hashed tells
requests apart exactly by these. -/
theorem authorized_in_first_scope
    (hx : Exec World.Init (World.step k b) ((w, ev) :: h) w')
    (hi : ¬AuthorizedAt w i) (hi' : AuthorizedAt w' i) (hfirst : FirstLogin i ((w, ev) :: h) lr)
    (hswitch : ∀ e r, ev ≠ .conn i e (.recv (.switchSidesResponse r)))
    (hfree : CollisionFree k ((w, ev) :: h) i) :
    (∀ lr₁ lr₂, loginScopeInput lr₁ = loginScopeInput lr₂ ↔
      lr₁.myId = lr₂.myId ∧ lr₁.union = lr₂.union) ∧
    ∃ c e cev, w'.conns[i]? = some c ∧ ev = .conn i e cev ∧ c.login.lr.myId = lr.myId ∧
      c.login.lr.union = lr.union ∧ RunsIn lr e c.scope := by
  refine ⟨fun _ _ => loginScopeInput_eq_iff, ?_⟩
  cases hx with
  | snoc hx hstep =>
    have hwf := World.wf_of_exec hx
    obtain ⟨e, cev, c, c', sh', rfl, hc, hun, hc', hauth, -, turn⟩ := authorizes_turn hwf hstep hi hi'
    refine ⟨c', e, cev, hc', rfl, ?_⟩
    have hl := latch_of_exec hx hfree.older c hc
    cases turn.enters hun hauth with
    | login running _ _ took decides =>
      have hrun : c.phase = .running := running
      have hun₁ := took.near.authorized.trans hun
      obtain ⟨hid, hu, hsc⟩ := (hl.took hun (by simp [hrun]) hfree took).first hun₁
        (by simp [took.near.phase, Conn.asked, running]) hfirst
      exact decides.runsIn hun₁ hauth hid hu hsc
    | code running _ _ _ _ decides =>
      have hrun : c.phase = .running := running
      obtain ⟨hid, hu, hsc⟩ := (hl.step_plain id).first hun (by simp [hrun]) hfirst
      exact decides.runsIn hun hauth hid hu hsc
    | approved running decides =>
      have hrun : c.phase = .running := running
      obtain ⟨hid, hu, hsc⟩ := (hl.step_plain id).first hun (by simp [hrun]) hfirst
      exact decides.runsIn hun hauth hid hu hsc
    | switched _ _ _ _ => exact absurd rfl (hswitch _ _)
    | @connected kont _ phase same =>
      have hph : c.phase = .connecting kont := phase
      obtain ⟨hid, hu, hsc⟩ := (hl.step_plain id).first hun (by simp [hph]) hfirst
      obtain ⟨-, -, -, pf, hpf, hm⟩ := (hwf i c hc).connecting kont phase
      have hlr : c'.login.lr = c.login.lr := by
        rw [same]
        exact grant_lr w.shared (c.clear e).connected
      rw [hlr, same]
      exact ⟨hid, hu, runsIn_grant (connected_pending hsc (hu ▸ hpf) hm)⟩

end Runs

/-! ## A terminal without a service -/

section Terminal

/-- A peer that asks for a terminal and leaves its service open. -/
def terminalRequest : LoginRequest where
  myId := ⟨"363951002", by decide⟩
  union := some (.terminal .empty)

/-- SHA-256 at the text of `terminalRequest`. -/
def terminalDigest : Bytes :=
  [94, 141, 108, 59, 226, 11, 33, 92, 134, 220, 154, 189, 73, 85, 145, 232, 143, 13, 53, 28, 39, 87, 52,
    225, 151, 200, 76, 210, 234, 216, 236, 132]

def Crypto.ofTerminal : Crypto :=
  { Crypto.unused with
    sha256 := fun bytes => if bytes = loginScopeInput terminalRequest then terminalDigest else [] }

def terminalEnv : Env := { freshPassword := "3m7tdw", generatedServiceId := "ts_0f0e5c9a" }

/-- The request is received, and the connection manager lets it in. -/
theorem terminal_exec : ∃ w w' h,
    Exec World.Init (World.step .ofTerminal .linux) ((w, .conn 0 terminalEnv .authorize) :: h) w' ∧
      ¬AuthorizedAt w 0 ∧
      (∃ c, w'.conns[0]? = some c ∧ c.login.authorized = true ∧
        c.scope.terminalServiceId = terminalEnv.generatedServiceId) ∧
      FirstLogin 0 ((w, .conn 0 terminalEnv .authorize) :: h) terminalRequest ∧
      CollisionFree .ofTerminal ((w, .conn 0 terminalEnv .authorize) :: h) 0 := by
  have hstart : Exec World.Init (World.step .ofTerminal .linux) [(World.idle "8k2xq4", .start .plain)] _ :=
    .snoc (.start (World.init_idle "8k2xq4")) rfl
  have hasked := hstart.snoc (e := .conn 0 terminalEnv (.recv (.loginRequest terminalRequest))) rfl
  have hin := hasked.snoc (e := .conn 0 terminalEnv .authorize) rfl
  refine ⟨_, _, _, hin, ?_, ⟨_, rfl, rfl, rfl⟩, ?_, ?_⟩
  · rintro ⟨c, hc, hauth⟩
    cases hc
    cases hauth
  · refine ⟨[_], _, terminalEnv, [_], rfl, ?_⟩
    rintro p hp ⟨e, lr, hev⟩
    cases List.mem_singleton.1 hp
    cases hev
  · refine .of_one terminalRequest ?_
    rintro a ⟨p, hp, e, hev⟩
    rcases List.mem_cons.1 hp with rfl | hp
    · cases hev
    rcases List.mem_cons.1 hp with rfl | hp
    · cases hev
      rfl
    · cases List.mem_singleton.1 hp
      cases hev

theorem authorized_in_first_scope_terminal : ∃ w w' h,
    Exec World.Init (World.step .ofTerminal .linux) ((w, .conn 0 terminalEnv .authorize) :: h) w' ∧
      ¬AuthorizedAt w 0 ∧ AuthorizedAt w' 0 ∧
      FirstLogin 0 ((w, .conn 0 terminalEnv .authorize) :: h) terminalRequest ∧
      CollisionFree .ofTerminal ((w, .conn 0 terminalEnv .authorize) :: h) 0 ∧
      ∃ c e cev, w'.conns[0]? = some c ∧ Event.conn 0 terminalEnv .authorize = .conn 0 e cev ∧
        c.login.lr.myId = terminalRequest.myId ∧ c.login.lr.union = terminalRequest.union ∧
        RunsIn terminalRequest e c.scope := by
  obtain ⟨w, w', h, hx, hi, ⟨c, hc, hauth, -⟩, hfirst, hfree⟩ := terminal_exec
  exact ⟨w, w', h, hx, hi, ⟨c, hc, hauth⟩, hfirst, hfree,
    (authorized_in_first_scope hx hi ⟨c, hc, hauth⟩ hfirst (fun _ _ h => (nomatch h)) hfree).2⟩

/-- A terminal that was asked for without a service does not run with what was asked for. -/
theorem terminal_service_not_latched : ∃ w w' h,
    Exec World.Init (World.step .ofTerminal .linux) ((w, .conn 0 terminalEnv .authorize) :: h) w' ∧
      ¬AuthorizedAt w 0 ∧ FirstLogin 0 ((w, .conn 0 terminalEnv .authorize) :: h) terminalRequest ∧
      CollisionFree .ofTerminal ((w, .conn 0 terminalEnv .authorize) :: h) 0 ∧
      ∃ c, w'.conns[0]? = some c ∧ c.login.authorized = true ∧
        c.scope ≠ SessionScope.ofRequest terminalRequest := by
  obtain ⟨w, w', h, hx, hi, ⟨c, hc, hauth, hid⟩, hfirst, hfree⟩ := terminal_exec
  refine ⟨w, w', h, hx, hi, hfirst, hfree, c, hc, hauth, fun hsc => ?_⟩
  rw [hsc] at hid
  exact absurd hid (by decide)

end Terminal

end FontisRemote.Connection
