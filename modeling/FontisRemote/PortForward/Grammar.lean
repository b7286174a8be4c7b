import FontisRemote.PortForward.MuxSteps

/-!
# What one side says about one channel

The frames a side hands to its sink for one channel, `window_update`s aside, are `open data* close?` on
the controller and `opened(success) data* close?`, `opened(failure)` or `close` on the controlled side,
or the beginning of it (`Grammar`), whatever the peer sends and however the channel ends; and a side
that has taken the peer's `close` sends none of its own.

A channel is one call of `TunnelHandle::open`, or one `open` frame handled on the controlled side: an id
can be given to another channel once its entry is gone. The argument is about `Side.Step` alone, for
any system that is one side (`IsSide`).
-/

namespace FontisRemote.PortForward

open FontisRemote.Lib Channel

/-- The frame a channel starts with. -/
inductive Opens (id : ChannelId) : Role → Frame → Prop
  | open (host : String) (port : Int) (serial : Nat) :
      Opens id .controller (.open id host port channelWindow serial)
  | opened : Opens id .controlled (.opened id true "" channelWindow)

/-- What a side may have said about a channel. -/
inductive Grammar (role : Role) (id : ChannelId) : List Frame → Prop
  | silent : Grammar role id []
  | talks {first : Frame} (opens : Opens id role first) (ds : List Bytes) :
      Grammar role id (first :: ds.map (.data id))
  | closes {first : Frame} (opens : Opens id role first) (ds : List Bytes) :
      Grammar role id (first :: (ds.map (.data id) ++ [.close id]))
  | refused (message : String) (side : role = .controlled) :
      Grammar role id [.opened id false message 0]
  | dropped (side : role = .controlled) : Grammar role id [.close id]

namespace Side

/-- The frames of a channel, without the `window_update`s. -/
def said (s : Side) (n : Nat) : List Frame :=
  ((s.sent.filter (·.1 = n)).map Prod.snd).filter (!·.isUpdate)

theorem said_append {s : Side} {fs : List (Nat × Frame)} {n : Nat} :
    (((s.sent ++ fs).filter (·.1 = n)).map Prod.snd).filter (!·.isUpdate) =
      s.said n ++ ((fs.filter (·.1 = n)).map Prod.snd).filter (!·.isUpdate) := by
  simp [said]

end Side

/-! ## One task -/

/-- How far a task is, and what it has said. -/
def Said (role : Role) (c : Channel) (fs : List Frame) : Prop :=
  match c.stage with
  | .opening => role = .controller ∧ fs = []
  | .connecting | .granted => role = .controlled ∧ fs = []
  | .running | .closing =>
    ∃ (first : Frame) (ds : List Bytes), Opens c.id role first ∧ fs = first :: ds.map (.data c.id)
  | .leaving | .exited => Grammar role c.id fs

section Task

variable {role : Role} {gone entry : Bool} {c c' : Channel} {e : TaskEvent} {em : Emit} {fs : List Frame}

theorem Opens.ne_close {id : ChannelId} {first : Frame} (h : Opens id role first) :
    first ≠ .close id := by
  cases h <;> simp

theorem Said.grammar (h : Said role c fs) : Grammar role c.id fs := by
  unfold Said at h
  split at h
  · rw [h.2]
    exact .silent
  · rw [h.2]
    exact .silent
  · rw [h.2]
    exact .silent
  · obtain ⟨first, ds, hopens, rfl⟩ := h
    exact .talks hopens ds
  · obtain ⟨first, ds, hopens, rfl⟩ := h
    exact .talks hopens ds
  · exact h
  · exact h

/-- A step that says nothing and leaves the stage alone. -/
theorem Said.keep (h : Said role c fs) (hid : c'.id = c.id) (hstage : c'.stage = c.stage) :
    Said role c' fs := by
  unfold Said at h ⊢
  rw [hstage, hid]
  exact h

theorem Said.of_running (h : Said role c fs) (hs : c.stage = .running) :
    ∃ (first : Frame) (ds : List Bytes), Opens c.id role first ∧ fs = first :: ds.map (.data c.id) := by
  unfold Said at h
  rw [hs] at h
  exact h

theorem Said.of_connecting (h : Said role c fs) (hs : c.stage = .connecting) :
    role = .controlled ∧ fs = [] := by
  unfold Said at h
  rw [hs] at h
  exact h

theorem Channel.Did.said (hd : Did gone entry c e c' em) (h : Said role c fs) :
    Said role c' (fs ++ em.ordered) := by
  cases hd with
  | sendOpen hs =>
    unfold Said at h
    rw [hs] at h
    obtain ⟨rfl, rfl⟩ := h
    exact ⟨_, [], .open c.host c.port c.serial, rfl⟩
  | sendOpenFails hs _ =>
    unfold Said at h
    rw [hs] at h
    obtain ⟨rfl, rfl⟩ := h
    exact Grammar.silent
  | connectOverflow hs _ _ =>
    obtain ⟨rfl, rfl⟩ := h.of_connecting hs
    exact Grammar.dropped rfl
  | connectClose hs _ =>
    obtain ⟨rfl, rfl⟩ := h.of_connecting hs
    exact Grammar.silent
  | connectViolation hs _ =>
    obtain ⟨rfl, rfl⟩ := h.of_connecting hs
    exact Grammar.dropped rfl
  | connectGone hs _ _ =>
    obtain ⟨rfl, rfl⟩ := h.of_connecting hs
    exact Grammar.silent
  | connected hs => exact ⟨(h.of_connecting hs).1, by simp [(h.of_connecting hs).2, Emit.nothing]⟩
  | connectFails hs =>
    obtain ⟨rfl, rfl⟩ := h.of_connecting hs
    exact Grammar.refused _ rfl
  | sendOpened hs =>
    unfold Said at h
    rw [hs] at h
    obtain ⟨rfl, rfl⟩ := h
    exact ⟨_, [], .opened, rfl⟩
  | sendOpenedFails hs _ =>
    unfold Said at h
    rw [hs] at h
    obtain ⟨rfl, rfl⟩ := h
    exact Grammar.silent
  | @sendData bs hs _ =>
    obtain ⟨first, ds, hopens, rfl⟩ := h.of_running hs
    unfold Said
    simp only [hs]
    exact ⟨first, ds ++ [bs], hopens, by simp [Emit.onOrdered]⟩
  | @join r₁ r₂ hs _ _ =>
    obtain ⟨first, ds, hopens, rfl⟩ := h.of_running hs
    cases hsc : sendsClose r₁ r₂ with
    | true => exact ⟨first, ds, hopens, by simp [Emit.nothing]⟩
    | false => simpa [Said, Emit.nothing] using Grammar.talks hopens ds
  | sendClose hs =>
    unfold Said at h
    rw [hs] at h
    obtain ⟨first, ds, hopens, rfl⟩ := h
    exact Grammar.closes hopens ds
  | sendCloseFails hs _ =>
    unfold Said at h
    rw [hs] at h
    obtain ⟨first, ds, hopens, rfl⟩ := h
    simpa [Said, Emit.nothing] using Grammar.talks hopens ds
  | leave hs =>
    unfold Said at h
    rw [hs] at h
    simpa [Said, Emit.nothing] using h
  | _ =>
    simp only [Emit.nothing, Emit.onControl, List.append_nil]
    exact h.keep rfl rfl

/-- A task that has taken the peer's `close`: its half that writes to the socket ended with it, or it
was still connecting, and then it has gone without a word. -/
def Heard (c : Channel) (fs : List Frame) : Prop :=
  c.toSocket = .ended .peerClosed ∧ (c.stage = .running ∨ c.finished = true) ∧ .close c.id ∉ fs ∨
    c.stage = .exited ∧ fs = []

theorem Heard.silent (h : Heard c fs) : .close c.id ∉ fs := by
  rcases h with ⟨-, -, hno⟩ | ⟨-, rfl⟩
  · exact hno
  · exact List.not_mem_nil

/-- The step takes the peer's `close` from the inbound queue. -/
def Takes (c : Channel) (e : TaskEvent) : Prop :=
  (e = .connectRecv ∨ e = .nextInbound) ∧ ∃ rest, c.inbound = .close :: rest

theorem Channel.Did.heard (hd : Did gone entry c e c' em) (h : Heard c fs) :
    Heard c' (fs ++ em.ordered) := by
  rcases h with ⟨hend, hstage, hno⟩ | ⟨hexit, rfl⟩
  · refine .inl ⟨hd.toSocket_ended hend, ?_⟩
    rcases hstage with hrun | hfin
    · cases hd with
      | @join first second _ _ hso =>
        rw [hend] at hso
        cases hso
        simp [sendsClose, Channel.finished, Emit.nothing, hno]
      | sendData _ _ => exact ⟨.inl hrun, by simpa [Emit.onOrdered] using hno⟩
      | _ => simp_all [Emit.nothing]
    · obtain ⟨hfin', rfl, -, -⟩ := hd.finished hfin
      refine ⟨.inr hfin', ?_⟩
      rw [hd.id_eq.1]
      simpa [Emit.nothing] using hno
  · cases hd <;> simp_all

theorem Channel.Did.takes (hd : Did gone entry c e c' em) (hs : Said role c fs) (ht : Takes c e) :
    Heard c' (fs ++ em.ordered) := by
  obtain ⟨he, rest, hin⟩ := ht
  cases hd with
  | connectClose hc _ =>
    obtain ⟨-, rfl⟩ := hs.of_connecting hc
    exact .inr ⟨rfl, rfl⟩
  | nextClose hr _ _ _ =>
    obtain ⟨first, ds, hopens, rfl⟩ := hs.of_running hr
    refine .inl ⟨rfl, .inl hr, ?_⟩
    simp [Emit.nothing, hopens.ne_close.symm]
  | _ => simp_all

end Task

/-! ## One side -/

namespace Side

variable {role : Role} {s s' : Side}

def serials (s : Side) : List Nat := s.tasks.map Channel.serial

/-- What every step of a side keeps. -/
structure Talks (role : Role) (s : Side) : Prop where
  increasing : s.serials.Pairwise (· < ·)
  bounded : ∀ n ∈ s.serials, n < s.opens
  labels : ∀ p ∈ s.sent, p.1 < s.opens
  each : ∀ (i : Nat) (c : Channel), s.tasks[i]? = some c → Said role c (s.said c.serial)
  /-- What is no task's was said when an `open` was refused. -/
  rest : ∀ n, n ∉ s.serials → ∃ id, Grammar role id (s.said n)

theorem serials_set {i : Nat} {c c' : Channel} (hc : s.tasks[i]? = some c) (hs : c'.serial = c.serial) :
    (s.tasks.set i c').map Channel.serial = s.serials := by
  rw [List.map_set, hs]
  obtain ⟨hlt, rfl⟩ := List.getElem?_eq_some_iff.1 hc
  refine List.ext_getElem (by simp [serials]) fun j h₁ h₂ => ?_
  by_cases hij : i = j
  · subst hij
    simp [serials]
  · simp [serials, List.getElem_set_ne hij]

theorem serial_mem {i : Nat} {c : Channel} (hc : s.tasks[i]? = some c) : c.serial ∈ s.serials :=
  List.mem_map_of_mem (List.mem_of_getElem? hc)

/-- No two tasks belong to the same open. -/
theorem Talks.serial_inj (h : Talks role s) {i j : Nat} {c d : Channel} (hc : s.tasks[i]? = some c)
    (hd : s.tasks[j]? = some d) (heq : c.serial = d.serial) : i = j := by
  obtain ⟨hi, rfl⟩ := List.getElem?_eq_some_iff.1 hc
  obtain ⟨hj, rfl⟩ := List.getElem?_eq_some_iff.1 hd
  have hpair := List.pairwise_iff_getElem.1 h.increasing
  rcases Nat.lt_trichotomy i j with hlt | heq' | hlt
  · have hl := hpair i j (by simpa [serials] using hi) (by simpa [serials] using hj) hlt
    simp only [serials, List.getElem_map] at hl
    omega
  · exact heq'
  · have hl := hpair j i (by simpa [serials] using hj) (by simpa [serials] using hi) hlt
    simp only [serials, List.getElem_map] at hl
    omega

/-- Nothing was said yet about the next open. -/
theorem Talks.said_opens (h : Talks role s) : s.said s.opens = [] := by
  have hno : s.sent.filter (·.1 = s.opens) = [] := by
    refine List.filter_eq_nil_iff.2 fun p hp => ?_
    have hlt := h.labels p hp
    simpa using hlt.ne
  rw [said, hno]
  rfl

/-- What a step of a task adds to what was said. -/
theorem said_stepped {i : Nat} {e : TaskEvent} {c c' : Channel} {em : Emit}
    (hd : Did s.gone (s.holds i) c e c' em)
    (hsent : s'.sent = s.sent ++ (em.ordered ++ em.control).map (c.serial, ·)) (n : Nat) :
    s'.said n = s.said n ++ if c.serial = n then em.ordered else [] := by
  have hord : em.ordered.filter (!·.isUpdate) = em.ordered := by
    refine List.filter_eq_self.2 fun f hf => ?_
    simp [hd.ordered_not_update hf]
  have hctl : em.control.filter (!·.isUpdate) = [] := by
    rcases hd.control with h | ⟨k, h⟩ <;> simp [h, Frame.isUpdate]
  rw [said, hsent, said_append]
  by_cases hn : c.serial = n
  · simp [hn, List.filter_map, Function.comp_def, List.map_map, hord, hctl]
  · simp [hn, List.filter_map, Function.comp_def]

theorem Talks.step (h : Talks role s) (hs : Step role s s') : Talks role s' := by
  cases hs with
  | @spawned id c _ born _ _ _ tasks opens sent =>
    have hser : c.serial = s.opens := by cases born <;> rfl
    have hsaid : ∀ n, s'.said n = s.said n := fun n => by rw [said, said, sent]
    have hserials : s'.serials = s.serials ++ [s.opens] := by simp [serials, tasks, hser]
    refine ⟨?_, fun n hn => ?_, fun p hp => ?_, fun i c' hc' => ?_, fun n hn => ?_⟩
    · rw [hserials, List.pairwise_append]
      refine ⟨h.increasing, by simp, fun a ha b hb => ?_⟩
      rw [List.mem_singleton.1 hb]
      exact h.bounded a ha
    · rw [hserials] at hn
      rcases List.mem_append.1 hn with hn | hn
      · have := h.bounded n hn
        omega
      · rw [List.mem_singleton.1 hn]
        omega
    · rw [sent] at hp
      have := h.labels p hp
      omega
    · rw [hsaid]
      rw [tasks] at hc'
      by_cases hlt : i < s.tasks.length
      · rw [List.getElem?_append_left hlt] at hc'
        exact h.each i c' hc'
      · have hci : c' = c := by
          rw [List.getElem?_append_right (by omega)] at hc'
          exact (List.mem_singleton.1 (List.mem_of_getElem? hc'))
        subst hci
        rw [hser, h.said_opens]
        cases born with
        | opening => exact ⟨rfl, rfl⟩
        | connecting => exact ⟨rfl, rfl⟩
    · rw [hsaid]
      exact h.rest n fun hm => hn (by simp [hserials, hm])
  | @delivered id f op eq =>
    subst eq
    have hsent : (s.deliver id f).sent = s.sent ∧ (s.deliver id f).opens = s.opens := by
      rcases s.deliver_cases id op with heq | ⟨_, _, _, -, -, -, -, heq⟩ <;> simp [heq]
    have hsaid : ∀ n, (s.deliver id f).said n = s.said n := fun n => by rw [said, said, hsent.1]
    have hserials : (s.deliver id f).serials = s.serials := by
      rcases s.deliver_cases id op with heq | ⟨slot, c, c', -, hc, -, hrec, heq⟩
      · rw [heq]
      · rw [heq]
        refine serials_set hc ?_
        rw [hrec.eq]
    refine ⟨hserials ▸ h.increasing, ?_, ?_, fun i c' hc' => ?_, fun n hn => ?_⟩
    · rw [hserials, hsent.2]
      exact h.bounded
    · rw [hsent.1, hsent.2]
      exact h.labels
    · obtain ⟨c, hc, hrec⟩ := deliver_task op hc'
      have hser : c'.serial = c.serial := by rw [hrec.eq]
      rw [hsaid, hser]
      exact (h.each i c hc).keep (by rw [hrec.eq]) (by rw [hrec.eq])
    · rw [hsaid]
      exact h.rest n (hserials ▸ hn)
  | @stepped i e c c₁ em task did channels tasks opens sent =>
    have hsaid : ∀ n, s'.said n = s.said n ++ if c.serial = n then em.ordered else [] := said_stepped did sent
    have hserials : s'.serials = s.serials := by
      rw [serials, tasks]
      exact serials_set task did.id_eq.2.1
    refine ⟨hserials ▸ h.increasing, ?_, fun p hp => ?_, fun j c' hc' => ?_, fun n hn => ?_⟩
    · rw [hserials, opens]
      exact h.bounded
    · rw [opens]
      rw [sent] at hp
      rcases List.mem_append.1 hp with hp | hp
      · exact h.labels p hp
      · obtain ⟨f, -, rfl⟩ := List.mem_map.1 hp
        exact h.bounded _ (serial_mem task)
    · rw [tasks] at hc'
      rcases getElem?_set_eq_some hc' with ⟨rfl, rfl⟩ | ⟨hij, hc'⟩
      · rw [did.id_eq.2.1, hsaid, if_pos rfl]
        exact did.said (h.each _ c task)
      · have hne : c.serial ≠ c'.serial := fun heq => hij (h.serial_inj task hc' heq).symm
        rw [hsaid, if_neg hne, List.append_nil]
        exact h.each j c' hc'
    · have hne : c.serial ≠ n := fun heq => hn (hserials ▸ heq ▸ serial_mem task)
      rw [hsaid, if_neg hne, List.append_nil]
      exact h.rest n (hserials ▸ hn)
  | @refused id message side _ tasks opens sent =>
    have hserials : s'.serials = s.serials := by rw [serials, serials, tasks]
    have hsaid : ∀ n, s'.said n = s.said n ∨
        n = s.opens ∧ s'.said n = [.opened id false message 0] := by
      intro n
      rcases sent with heq | heq
      · exact .inl (by rw [said, said, heq])
      · by_cases hn : s.opens = n
        · refine .inr ⟨hn.symm, ?_⟩
          rw [said, heq, said_append, ← hn, h.said_opens]
          simp [Frame.isUpdate]
        · refine .inl ?_
          rw [said, heq, said_append]
          simp [hn]
    refine ⟨hserials ▸ h.increasing, fun n hn => ?_, fun p hp => ?_, fun i c hc => ?_, fun n hn => ?_⟩
    · have := h.bounded n (hserials ▸ hn)
      omega
    · rcases sent with heq | heq
      · rw [heq] at hp
        have := h.labels p hp
        omega
      · rw [heq] at hp
        rcases List.mem_append.1 hp with hp | hp
        · have := h.labels p hp
          omega
        · rw [List.mem_singleton.1 hp]
          show s.opens < s'.opens
          omega
    · rw [tasks] at hc
      rcases hsaid c.serial with heq | ⟨heq, -⟩
      · rw [heq]
        exact h.each i c hc
      · have := h.bounded _ (serial_mem hc)
        omega
    · rcases hsaid n with heq | ⟨-, heq⟩
      · rw [heq]
        exact h.rest n (hserials ▸ hn)
      · rw [heq]
        exact ⟨id, .refused message side⟩
  | trimmed _ tasks opens sent =>
    have hserials : s'.serials = s.serials := by rw [serials, serials, tasks]
    have hsaid : ∀ n, s'.said n = s.said n := fun n => by rw [said, said, sent]
    refine ⟨hserials ▸ h.increasing, fun n hn => ?_, fun p hp => ?_, fun i c hc => ?_, fun n hn => ?_⟩
    · have := h.bounded n (hserials ▸ hn)
      omega
    · rw [sent] at hp
      have := h.labels p hp
      omega
    · rw [hsaid]
      rw [tasks] at hc
      exact h.each i c hc
    · rw [hsaid]
      exact h.rest n (hserials ▸ hn)

theorem Talks.grammar (h : Talks role s) (n : Nat) : ∃ id, Grammar role id (s.said n) := by
  by_cases hn : n ∈ s.serials
  · obtain ⟨c, hc, rfl⟩ := List.mem_map.1 hn
    obtain ⟨i, hi⟩ := List.mem_iff_getElem?.1 hc
    exact ⟨c.id, (h.each i c hi).grammar⟩
  · exact h.rest n hn

/-- The task of a channel has taken the peer's `close`. -/
def HeardAt (s : Side) (i : Nat) (id : ChannelId) (n : Nat) : Prop :=
  ∃ c, s.tasks[i]? = some c ∧ c.id = id ∧ c.serial = n ∧ Heard c (s.said n)

theorem HeardAt.step {i n : Nat} {id : ChannelId} (h : s.HeardAt i id n) (ht : Talks role s)
    (hs : Step role s s') : s'.HeardAt i id n := by
  obtain ⟨c, hc, rfl, rfl, hh⟩ := h
  have hi := (List.getElem?_eq_some_iff.1 hc).1
  cases hs with
  | spawned _ _ _ _ tasks _ sent =>
    refine ⟨c, ?_, rfl, rfl, by rwa [said, sent]⟩
    rw [tasks, List.getElem?_append_left hi]
    exact hc
  | @delivered id f op eq =>
    subst eq
    rcases s.deliver_cases id op with heq | ⟨slot, d, d', -, hd, -, hrec, heq⟩
    · rw [heq]
      exact ⟨c, hc, rfl, rfl, hh⟩
    · rw [heq]
      by_cases hj : slot.task = i
      · subst hj
        cases hc.symm.trans hd
        refine ⟨d', by simp [hi], by rw [hrec.eq], by rw [hrec.eq], ?_⟩
        rw [hrec.eq]
        exact hh
      · exact ⟨c, by simpa [List.getElem?_set_ne hj] using hc, rfl, rfl, hh⟩
  | @stepped j e d d' em task did _ tasks _ sent =>
    by_cases hj : j = i
    · subst hj
      cases hc.symm.trans task
      refine ⟨d', by simp [tasks, hi], did.id_eq.1, did.id_eq.2.1, ?_⟩
      rw [said_stepped did sent, if_pos rfl]
      exact did.heard hh
    · refine ⟨c, by simpa [tasks, List.getElem?_set_ne hj] using hc, rfl, rfl, ?_⟩
      have hne : d.serial ≠ c.serial := fun heq => hj (ht.serial_inj task hc heq)
      rwa [said_stepped did sent, if_neg hne, List.append_nil]
  | @refused id message _ _ tasks _ sent =>
    refine ⟨c, tasks ▸ hc, rfl, rfl, ?_⟩
    rcases sent with heq | heq
    · rwa [said, heq]
    · have hlt := ht.bounded _ (serial_mem hc)
      rw [said, heq, said_append]
      simpa [hlt.ne'] using hh
  | trimmed _ tasks _ sent => exact ⟨c, tasks ▸ hc, rfl, rfl, by rwa [said, sent]⟩

theorem HeardAt.taken {i : Nat} {e : TaskEvent} {c c' : Channel} {em : Emit} (ht : Talks role s)
    (hc : s.tasks[i]? = some c) (hd : Did s.gone (s.holds i) c e c' em) (htakes : Takes c e)
    (htasks : s'.tasks = s.tasks.set i c')
    (hsent : s'.sent = s.sent ++ (em.ordered ++ em.control).map (c.serial, ·)) :
    s'.HeardAt i c.id c.serial := by
  refine ⟨c', by simp [htasks, (List.getElem?_eq_some_iff.1 hc).1], hd.id_eq.1, hd.id_eq.2.1, ?_⟩
  rw [said_stepped hd hsent, if_pos rfl]
  exact hd.takes (ht.each i c hc) htakes

end Side

/-! ## Runs -/

/-- A system whose states show one side of a tunnel, and whose events are steps of its tasks or
something else. -/
structure IsSide {σ ε : Type} (role : Role) (init : σ → Prop) (step : σ → ε → Option σ)
    (view : σ → Side) (task : Nat → TaskEvent → ε) : Prop where
  start : ∀ s, init s → (view s).tasks = [] ∧ (view s).sent = []
  moves : ∀ s e s', step s e = some s' → (view s).Step role (view s')
  acts : ∀ s i e s', step s (task i e) = some s' → ∃ c c' em, (view s).tasks[i]? = some c ∧
    Did (view s).gone ((view s).holds i) c e c' em ∧ (view s').tasks = (view s).tasks.set i c' ∧
    (view s').sent = (view s).sent ++ (em.ordered ++ em.control).map (c.serial, ·)

namespace IsSide

variable {σ ε : Type} {role : Role} {init : σ → Prop} {step : σ → ε → Option σ} {view : σ → Side}
  {task : Nat → TaskEvent → ε} {h : List (σ × ε)} {s : σ}

theorem talks (hs : IsSide role init step view task) (hx : Exec init step h s) :
    (view s).Talks role := by
  refine hx.invariant (I := fun s => (view s).Talks role) (fun s hi => ?_)
    fun s e s' ht hstep => ht.step (hs.moves s e s' hstep)
  obtain ⟨htasks, hsent⟩ := hs.start s hi
  refine ⟨by simp [Side.serials, htasks], by simp [Side.serials, htasks], by simp [hsent],
    by simp [htasks], fun n _ => ⟨0, ?_⟩⟩
  rw [Side.said, hsent]
  exact .silent

/-- What a side has said about a channel is in the grammar. -/
theorem grammar (hs : IsSide role init step view task) (hx : Exec init step h s) (n : Nat) :
    ∃ id, Grammar role id ((view s).said n) :=
  (hs.talks hx).grammar n

/-- A side that has taken the peer's `close` sends none. -/
theorem no_echo (hs : IsSide role init step view task) (hx : Exec init step h s) :
    ∀ p ∈ h, ∀ i e c, p.2 = task i e → (view p.1).tasks[i]? = some c → Takes c e →
      .close c.id ∉ (view s).said c.serial := by
  have hheard : ∀ p ∈ h, ∀ i e c, p.2 = task i e → (view p.1).tasks[i]? = some c → Takes c e →
      (view s).HeardAt i c.id c.serial := by
    induction hx with
    | start _ => exact fun p hp => (nomatch hp)
    | @snoc h s s' ev hx hstep ih =>
      have ht := hs.talks hx
      intro p hp i e c he hc htakes
      rcases List.mem_cons.1 hp with rfl | hp
      · dsimp only at he hc
        subst he
        obtain ⟨d, d', em, hd, hdid, htasks, hsent⟩ := hs.acts s i e s' hstep
        cases hc.symm.trans hd
        exact .taken ht hd hdid htakes htasks hsent
      · exact (ih p hp i e c he hc htakes).step ht (hs.moves s ev s' hstep)
  intro p hp i e c he hc htakes
  obtain ⟨c', -, hid, -, hh⟩ := hheard p hp i e c he hc htakes
  rw [← hid]
  exact hh.silent

end IsSide

theorem TunnelHandle.isSide : IsSide .controller TunnelHandle.Init TunnelHandle.step
    TunnelHandle.toSide .task where
  start t hi := by
    rw [hi]
    exact ⟨rfl, rfl⟩
  moves _ _ _ h := side_step h
  acts t i e t' h := by
    obtain ⟨c, c', em, hc, hstep, rfl⟩ := task_cases h
    exact ⟨c, c', em, hc, did_of_step hstep, rfl, rfl⟩

theorem PortForwardMux.isSide : IsSide .controlled PortForwardMux.Init PortForwardMux.step
    PortForwardMux.toSide .task where
  start m hi := by
    obtain ⟨target, rfl⟩ := hi
    exact ⟨rfl, rfl⟩
  moves _ _ _ h := side_step h
  acts m i e m' h := by
    obtain ⟨⟨s, em⟩, hs, rfl⟩ := Option.map_eq_some_iff.1 h
    obtain ⟨c, c', hc, hstep, rfl⟩ := Side.taskStep_cases hs
    exact ⟨c, c', em, hc, did_of_step hstep, rfl, rfl⟩

/-- On either side, in every run, whatever the peer sends: what was said about each channel is in the
grammar, and after a task has taken the peer's `close` none is sent for its channel. -/
theorem said_in_grammar :
    (∀ h t, Exec TunnelHandle.Init TunnelHandle.step h t →
      (∀ n, ∃ id, Grammar .controller id (t.said n)) ∧
        ∀ p ∈ h, ∀ i e c, p.2 = .task i e → p.1.tasks[i]? = some c → Takes c e →
          .close c.id ∉ t.said c.serial) ∧
    (∀ h m, Exec PortForwardMux.Init PortForwardMux.step h m →
      (∀ n, ∃ id, Grammar .controlled id (m.said n)) ∧
        ∀ p ∈ h, ∀ i e c, p.2 = .task i e → p.1.tasks[i]? = some c → Takes c e →
          .close c.id ∉ m.said c.serial) :=
  ⟨fun _ _ hx => ⟨TunnelHandle.isSide.grammar hx, TunnelHandle.isSide.no_echo hx⟩,
    fun _ _ hx => ⟨PortForwardMux.isSide.grammar hx, PortForwardMux.isSide.no_echo hx⟩⟩

/-- A channel whose target hangs up: its task says `opened` and `close`. -/
theorem said_in_grammar_hang_up : ∃ m h, Exec PortForwardMux.Init PortForwardMux.step h m ∧
    m.said 0 = [.opened 1 true "" channelWindow, .close 1] ∧
    ∃ id, Grammar .controlled id (m.said 0) := by
  have h₀ : Exec PortForwardMux.Init PortForwardMux.step [] .rdp := .start ⟨_, rfl⟩
  have h₁ := h₀.snoc (e := .frame true (.open 1 "RDP" 0 channelWindow 0)) rfl
  have h₂ := h₁.snoc (e := .task 0 .connected) rfl
  have h₃ := h₂.snoc (e := .task 0 .sendOpened) rfl
  have h₄ := h₃.snoc (e := .task 0 .take) rfl
  have h₅ := h₄.snoc (e := .task 0 .readEof) rfl
  have h₆ := h₅.snoc (e := .task 0 .signalCancel) rfl
  have h₇ := h₆.snoc (e := .task 0 .nextCancelled) rfl
  have h₈ := h₇.snoc (e := .task 0 .join) rfl
  have h₉ := h₈.snoc (e := .task 0 .sendClose) rfl
  exact ⟨_, _, h₉, by decide +kernel, (said_in_grammar.2 _ _ h₉).1 0⟩

/-- A controller may use an id again: what is said under one id is then not in the grammar, although
what is said about each of the two channels is. -/
theorem id_said_twice : ∃ m h, Exec PortForwardMux.Init PortForwardMux.step h m ∧
    ((m.sent.map Prod.snd).filter fun f => f.id = 1 && !f.isUpdate) =
      [.opened 1 true "" channelWindow, .opened 1 false "unreachable" 0] ∧
    ∀ id, ¬Grammar .controlled id
      ((m.sent.map Prod.snd).filter fun f => f.id = 1 && !f.isUpdate) := by
  have h₀ : Exec PortForwardMux.Init PortForwardMux.step [] .rdp := .start ⟨_, rfl⟩
  have h₁ := h₀.snoc (e := .frame true (.open 1 "RDP" 0 channelWindow 0)) rfl
  have h₂ := h₁.snoc (e := .task 0 .connected) rfl
  have h₃ := h₂.snoc (e := .task 0 .sendOpened) rfl
  have h₄ := h₃.snoc (e := .frame true (.close 1)) rfl
  have h₅ := h₄.snoc (e := .frame true (.open 1 "RDP" 0 channelWindow 0)) rfl
  have h₆ := h₅.snoc (e := .task 1 (.connectFails "unreachable")) rfl
  refine ⟨_, _, h₆, by decide +kernel, fun id hg => ?_⟩
  have hsaid : ∀ {fs}, Grammar .controlled id fs →
      fs ≠ [.opened 1 true "" channelWindow, .opened 1 false "unreachable" 0] := by
    intro fs hg heq
    cases hg with
    | silent => cases heq
    | talks _ ds => cases ds <;> simp at heq
    | closes _ ds => cases ds <;> simp at heq
    | refused => cases heq
    | dropped => cases heq
  exact hsaid hg (by decide +kernel)

end FontisRemote.PortForward
