import FontisRemote.Terminal.Continuity

/-!
# What a poll keeps

Every region of `read_outputs` keeps the invariant by itself. A visit moves what is pending and what is in
the channel into the hands of the poll; the cleanup takes the sessions it has found exited out of the map,
one by one, and reports them.
-/

namespace FontisRemote.Terminal

open FontisRemote.Lib

namespace Terminals

variable {s t : Terminals} {σ : Nat} {x y : TerminalSession} {o : Opened} {id : Int} {closed : List Int}

/-! ## Frames -/

/-- Steps that leave the sessions and the map, and move responses at most from hand to hand. -/
theorem Inv.goes (h : s.Inv) (harena : t.arena = s.arena) (hsessions : t.sessions = s.sessions)
    (hsync : t.needsSessionSync = s.needsSessionSync) (hreturned : s.returned <+: t.returned)
    (hproduced : t.produced = s.produced) (hheld : ∀ id, t.stage.held.count id = s.stage.held.count id)
    (hkept : ∀ id, id ∈ t.stage.kept ↔ id ∈ s.stage.kept)
    (htodo : ∀ q ∈ t.stage.todo, Assoc.get s.sessions q.1 = some q.2)
    (hfresh : (t.stage.todo.map Prod.fst ++ t.stage.held).Nodup)
    (hclone : ∀ id ∈ t.stage.clone.2, Assoc.get t.stage.clone.1 id = Assoc.get s.sessions id)
    (hquiet : t.stage = .idle → t.responses = []) : t.Inv where
  keys := hsessions ▸ h.keys
  inj := hsessions ▸ h.inj
  bound := by
    rw [hsessions, harena]
    exact h.bound
  synced hneeds := by
    rw [harena]
    exact h.synced (hsync ▸ hneeds)
  drained := harena ▸ h.drained
  todo := hsessions ▸ htodo
  fresh := hfresh
  kept id hid := by
    rw [hsessions, harena]
    exact h.kept id ((hkept id).mp hid)
  clone := hsessions ▸ hclone
  heard id σ x hid hx hflag := by
    rw [hsessions] at hid
    rw [harena] at hx
    exact (hkept id).mpr (h.heard id σ x hid hx hflag)
  quiet := hquiet
  follows σ x o hx ho := by
    rw [harena] at hx
    refine (h.follows σ x o hx ho).mono hreturned ?_ ?_ ?_
    · intro _
      rw [hproduced]
    · intro _
      rw [hproduced, hheld]
    · intro _ hlocated
      unfold Located at hlocated ⊢
      rwa [hsessions]

/-- Steps that change one session, and leave the map. -/
theorem Inv.changes (h : s.Inv) (hx : s.arena[σ]? = some x) (harena : t.arena = s.arena.set σ y)
    (hsessions : t.sessions = s.sessions)
    (hsync : t.needsSessionSync = true → s.needsSessionSync = true ∧ y.opened = x.opened) (hdrained : y.Drained)
    (htodo : ∀ q ∈ t.stage.todo, Assoc.get s.sessions q.1 = some q.2)
    (hfresh : (t.stage.todo.map Prod.fst ++ t.stage.held).Nodup)
    (hclone : ∀ id ∈ t.stage.clone.2, Assoc.get t.stage.clone.1 id = Assoc.get s.sessions id)
    (hquiet : t.stage = .idle → t.responses = [])
    (hflag : x.closedMessageSent = true → y.closedMessageSent = true)
    (hkept : ∀ id ∈ t.stage.kept, id ∈ s.stage.kept ∨
      Assoc.get s.sessions id = some σ ∧ y.closedMessageSent = true)
    (hheard : ∀ id, Assoc.get s.sessions id = some σ → y.closedMessageSent = true → id ∈ t.stage.kept)
    (hheard' : ∀ id ∈ s.stage.kept, id ∈ t.stage.kept)
    (hown : ∀ o, y.opened = some o → t.Follows σ y o)
    (hothers : ∀ σ' z o, σ' ≠ σ → s.Follows σ' z o → t.Follows σ' z o) : t.Inv where
  keys := hsessions ▸ h.keys
  inj := hsessions ▸ h.inj
  bound := by
    rw [hsessions, harena, List.length_set]
    exact h.bound
  synced hneeds z hz := by
    rw [harena] at hz
    obtain ⟨hneeds, hopened⟩ := hsync hneeds
    obtain hz | rfl := List.mem_or_eq_of_mem_set hz
    · exact h.synced hneeds z hz
    · rw [hopened]
      exact h.synced hneeds x (List.mem_of_getElem? hx)
  drained z hz := by
    rw [harena] at hz
    obtain hz | rfl := List.mem_or_eq_of_mem_set hz
    · exact h.drained z hz
    · exact hdrained
  todo := hsessions ▸ htodo
  fresh := hfresh
  kept id hid := by
    have hσ : σ < s.arena.length := (List.getElem?_eq_some_iff.mp hx).1
    rw [hsessions, harena]
    obtain hid | ⟨hget, hsent⟩ := hkept id hid
    · obtain ⟨ρ, z, hget, hz, hsent⟩ := h.kept id hid
      by_cases hρ : ρ = σ
      · subst hρ
        obtain rfl := Option.some.inj (hx.symm.trans hz)
        exact ⟨ρ, y, hget, List.getElem?_set_self hσ, hflag hsent⟩
      · exact ⟨ρ, z, hget, (List.getElem?_set_ne fun he => hρ he.symm).trans hz, hsent⟩
    · exact ⟨σ, y, hget, List.getElem?_set_self hσ, hsent⟩
  clone := hsessions ▸ hclone
  heard id ρ z hget hz hsent := by
    rw [hsessions] at hget
    rw [harena] at hz
    obtain ⟨rfl, rfl⟩ | ⟨-, hz⟩ := getElem?_set_eq_some hz
    · exact hheard id hget hsent
    · exact hheard' id (h.heard id ρ z hget hz hsent)
  quiet := hquiet
  follows ρ z o hz ho := by
    rw [harena] at hz
    obtain ⟨rfl, rfl⟩ | ⟨hne, hz⟩ := getElem?_set_eq_some hz
    · exact hown o ho
    · exact hothers ρ z o hne (h.follows ρ z o hz ho)

theorem Follows.set (h : s.Follows σ x o) (ρ : Nat) : (s.set ρ y).Follows σ x o :=
  h.mono (List.prefix_refl _) (fun _ => rfl) (fun _ => rfl) fun _ hlocated => hlocated

/-- What the reader thread and the shell's process are is not seen before the next visit. -/
theorem Inv.shell (h : s.Inv) (hx : s.arena[σ]? = some x) (readerFinished : Bool)
    (child : Option (Option Int)) : (s.set σ { x with readerFinished, child }).Inv := by
  refine h.changes hx rfl rfl (fun hneeds => ⟨hneeds, rfl⟩) (h.drained x (List.mem_of_getElem? hx)) h.todo
    h.fresh h.clone h.quiet id (fun _ => .inl) (fun id hget => h.heard id σ x hget hx) (fun _ => id) ?_ ?_
  · intro o ho
    have hset : (s.set σ { x with readerFinished, child }).Follows σ x o := (h.follows σ x o hx ho).set σ
    refine ⟨hset.streaming, hset.mark_le, hset.before_le, fun hopen => ?_, fun till htill => ?_⟩
    · obtain ⟨hlocated, hstream, hcount⟩ := hset.current hopen
      exact ⟨hlocated, hstream, hcount⟩
    · obtain ⟨htill, hsent, hstream, hcount⟩ := hset.past till htill
      exact ⟨htill, hsent, hstream, hcount⟩
  · intro ρ z o _ hfollows
    exact hfollows.set σ

/-! ## The cleanup -/

theorem drop_produced (h : s.Follows σ x o) (hreturned : t.returned = s.returned) {more : List Response}
    (hresponses : t.responses = s.responses ++ more) :
    t.produced.drop o.mark = s.produced.drop o.mark ++ more := by
  have hmark : o.mark ≤ s.produced.length := by
    unfold produced
    rw [List.length_append]
    exact h.mark_le.trans (Nat.le_add_right _ _)
  unfold produced
  rw [hreturned, hresponses, ← List.append_assoc]
  exact List.drop_append_of_le_length hmark

theorem Inv.kept_unmapped (h : s.Inv) (hheld : s.stage.held = id :: closed) : id ∉ closed := by
  have hfresh := (List.nodup_append.mp h.fresh).2.1
  rw [hheld] at hfresh
  exact (List.nodup_cons.mp hfresh).1

/-- A session whose shell has exited is taken out of the map. -/
theorem Inv.unmaps (h : s.Inv) (htodo : s.stage.todo = []) (hheld : s.stage.held = id :: closed)
    (hkept : s.stage.kept = id :: closed) (clone : List (Int × Nat))
    (hclone : ∀ i ∈ closed, Assoc.get clone i = Assoc.get s.sessions i) (σ : Nat) :
    Inv { s with
      sessions := Assoc.erase s.sessions id
      stage := .takingChild clone id σ closed } := by
  have hnot : id ∉ closed := h.kept_unmapped hheld
  have hother : ∀ i ∈ closed, Assoc.get (Assoc.erase s.sessions id) i = Assoc.get s.sessions i := by
    intro i hi
    rw [Assoc.get_erase, if_neg]
    rintro rfl
    exact hnot hi
  have hstays : ∀ (i : Int) (ρ : Nat), Assoc.get (Assoc.erase s.sessions id) i = some ρ →
      i ≠ id ∧ Assoc.get s.sessions i = some ρ := by
    intro i ρ hi
    rw [Assoc.get_erase] at hi
    split at hi
    · cases hi
    · rename_i hne
      exact ⟨hne, hi⟩
  refine ⟨Assoc.nodup_erase h.keys id, fun i j ρ hi hj => ?_, fun i ρ hi => ?_, h.synced, h.drained, ?_, ?_,
    fun i hi => ?_, fun i hi => ?_, fun i ρ z hi hz hsent => ?_, fun hidle => ?_, fun ρ z o hz ho => ?_⟩
  · exact h.inj i j ρ (hstays i ρ hi).2 (hstays j ρ hj).2
  · exact h.bound i ρ (hstays i ρ hi).2
  · intro q hq
    cases hq
  · have hfresh := h.fresh
    rwa [htodo, hheld] at hfresh
  · obtain ⟨ρ, z, hget, hz, hsent⟩ := h.kept i (by rw [hkept]; exact List.mem_cons_of_mem _ hi)
    exact ⟨ρ, z, (hother i hi).trans hget, hz, hsent⟩
  · exact (hclone i hi).trans (hother i hi).symm
  · obtain ⟨hne, hi⟩ := hstays i ρ hi
    have hmem := h.heard i ρ z hi hz hsent
    rw [hkept] at hmem
    exact (List.mem_cons.mp hmem).resolve_left hne
  · cases hidle
  · refine (h.follows ρ z o hz ho).mono (List.prefix_refl _) (fun _ => rfl) (fun _ => ?_) ?_
    · rw [hheld]
      rfl
    · rintro - (hin | hout)
      · by_cases hid : o.id = id
        · obtain ⟨ρ', z', hget, hz', hsent⟩ := h.kept id (by rw [hkept]; exact List.mem_cons_self ..)
          rw [hid, hget] at hin
          obtain rfl := Option.some.inj hin
          obtain rfl := Option.some.inj (hz.symm.trans hz')
          exact .inr ⟨by rw [hid, Assoc.get_erase, if_pos rfl], hsent⟩
        · exact .inl (by rw [Assoc.get_erase, if_neg hid, hin])
      · obtain ⟨hnone, hsent⟩ := hout
        refine .inr ⟨?_, hsent⟩
        rw [Assoc.get_erase, hnone, ite_self]

/-- And reported. -/
theorem Inv.reports {clone : List (Int × Nat)} (h : s.Inv)
    (hstage : s.stage = .takingChild clone id σ closed) (exitCode : Int) :
    ((s.push (.closed id exitCode)).goto (.cleaning clone closed)).Inv := by
  have hheld : s.stage.held = id :: closed := by rw [hstage]; rfl
  have hkept : s.stage.kept = closed := by rw [hstage]; rfl
  refine ⟨h.keys, h.inj, h.bound, h.synced, h.drained, nofun, ?_, fun i hi => ?_, fun i hi => ?_,
    fun i ρ z hi hz hsent => ?_, nofun, fun ρ z o hz ho => ?_⟩
  · have hfresh := (List.nodup_append.mp h.fresh).2.1
    rw [hheld] at hfresh
    exact (List.nodup_cons.mp hfresh).2
  · exact h.kept i (by rw [hkept]; exact hi)
  · have hclone := h.clone i
    rw [hstage] at hclone
    exact hclone hi
  · have hmem := h.heard i ρ z hi hz hsent
    rwa [hkept] at hmem
  · have hfollows := h.follows ρ z o hz ho
    have hproduced : ((s.push (.closed id exitCode)).goto (.cleaning clone closed)).produced.drop o.mark =
        s.produced.drop o.mark ++ [.closed id exitCode] :=
      drop_produced (t := (s.push (.closed id exitCode)).goto (.cleaning clone closed)) hfollows rfl rfl
    refine hfollows.mono (List.prefix_refl _) (fun _ => ?_) (fun _ => ?_) fun _ hlocated => hlocated
    · rw [hproduced, Response.bytesFor_append, Response.bytesFor_closed, List.append_nil]
    · rw [hproduced, Response.closedFor_append, Response.closedFor_closed, hheld, List.count_cons]
      dsimp only [goto, Stage.held]
      by_cases hid : id = o.id
      · rw [if_pos hid, if_pos (beq_iff_eq.mpr hid)]
        omega
      · rw [if_neg hid, if_neg fun he => hid (beq_iff_eq.mp he)]
        rfl

/-! ## A visit -/

theorem Inv.visit {todo : List (Int × Nat)} (h : s.Inv)
    (hstage : s.stage = .visiting ((id, σ) :: todo) closed) (hx : s.arena[σ]? = some x) (look : Look) :
    Inv { s with
      arena := s.arena.set σ (x.visited look)
      responses := s.responses ++ x.emits id
      stage := .visiting todo (if x.closes look then closed ++ [id] else closed) } := by
  set closed' := if x.closes look then closed ++ [id] else closed with hclosed'
  have hget : Assoc.get s.sessions id = some σ := by
    have htodo := h.todo
    rw [hstage] at htodo
    exact htodo (id, σ) (List.mem_cons_self ..)
  have hnodup : (id :: (todo.map Prod.fst ++ closed)).Nodup := by
    have hfresh := h.fresh
    rwa [hstage] at hfresh
  have hkept : s.stage.kept = closed := by rw [hstage]; rfl
  have hnot : id ∉ closed := fun hid => (List.nodup_cons.mp hnodup).1 (List.mem_append_right _ hid)
  -- a session that has been found exited is not visited again
  have hunsent : x.closedMessageSent = false := by
    by_contra hsent
    rw [Bool.not_eq_false] at hsent
    apply hnot
    rw [← hkept]
    exact h.heard id σ x hget hx hsent
  have hcloses : (x.visited look).closedMessageSent = x.closes look := by
    dsimp only [TerminalSession.visited]
    rw [hunsent, Bool.false_or]
  have hmem : ∀ i, i ∈ closed' ↔ i ∈ closed ∨ i = id ∧ x.closes look = true := by
    intro i
    rw [hclosed']
    split
    · rename_i hc
      rw [List.mem_append, List.mem_singleton]
      exact or_congr Iff.rfl ⟨fun hi => ⟨hi, hc⟩, fun hi => hi.1⟩
    · rename_i hc
      exact ⟨.inl, fun hi => hi.resolve_right fun hi => hc hi.2⟩
  have hcount' : ∀ i, closed'.count i = closed.count i + if i = id then (x.closes look).toNat else 0 := by
    intro i
    rw [hclosed']
    split
    · rename_i hc
      rw [List.count_append, List.count_singleton, hc]
      by_cases hi : i = id
      · rw [if_pos hi, if_pos (beq_iff_eq.mpr hi.symm)]
        rfl
      · rw [if_neg hi, if_neg fun he => hi (beq_iff_eq.mp he).symm]
    · rename_i hc
      rw [Bool.not_eq_true] at hc
      rw [hc]
      exact (congrArg (closed.count i + ·) (ite_self 0)).symm
  refine h.changes hx rfl rfl (fun hneeds => ⟨hneeds, rfl⟩)
    ((h.drained x (List.mem_of_getElem? hx)).visited look) ?_ ?_ nofun nofun ?_ ?_ ?_ ?_ ?_ ?_
  · intro q hq
    have htodo := h.todo
    rw [hstage] at htodo
    exact htodo q (List.mem_cons_of_mem _ hq)
  · dsimp only [Stage.todo, Stage.held]
    rw [hclosed']
    split
    · rw [← List.append_assoc]
      exact (List.perm_append_singleton id _).nodup_iff.mpr hnodup
    · exact (List.nodup_cons.mp hnodup).2
  · intro hsent
    rw [hunsent] at hsent
    cases hsent
  · intro i hi
    obtain hi | ⟨rfl, hc⟩ := (hmem i).mp hi
    · exact .inl (by rwa [hkept])
    · exact .inr ⟨hget, hcloses.trans hc⟩
  · intro i hi hsent
    exact (hmem i).mpr (.inr ⟨h.inj i id σ hi hget, hcloses.symm.trans hsent⟩)
  · intro i hi
    rw [hkept] at hi
    exact (hmem i).mpr (.inl hi)
  · intro o ho
    have hfollows := h.follows σ x o hx ho
    have hproduced := drop_produced (t := { s with
        arena := s.arena.set σ (x.visited look)
        responses := s.responses ++ x.emits id
        stage := .visiting todo closed' }) hfollows rfl rfl
    refine ⟨(x.visited_streaming look).trans hfollows.streaming, hfollows.mark_le, hfollows.before_le,
      fun hopen => ?_, fun till htill => ?_⟩
    · obtain ⟨hlocated, hstream, hcount⟩ := hfollows.current hopen
      have hid : o.id = id := by
        obtain hin | ⟨-, hsent⟩ := hlocated
        · exact h.inj o.id id σ hin hget
        · rw [hunsent] at hsent
          cases hsent
      refine ⟨.inl (by rw [hid]; exact hget), ?_, ?_⟩
      · rw [hproduced, Response.bytesFor_append, x.visited_toSend look, hid,
          x.bytesFor_emits id hfollows.streaming, List.append_nil]
        rw [hid, x.toSend_of_unsent hunsent] at hstream
        exact hstream
      · rw [hproduced, Response.closedFor_append, TerminalSession.closedFor_emits, hcloses]
        rw [hunsent, hstage] at hcount
        dsimp only [Stage.held] at hcount ⊢
        rw [hcount' o.id, if_pos hid, Nat.add_zero, ← Nat.add_assoc, hcount]
        exact Nat.zero_add _
    · have hsent := (hfollows.past till htill).closed
      rw [hunsent] at hsent
      cases hsent
  · intro ρ z o hne hfollows
    have hproduced := drop_produced (t := { s with
        arena := s.arena.set σ (x.visited look)
        responses := s.responses ++ x.emits id
        stage := .visiting todo closed' }) hfollows rfl rfl
    have hother : o.till = none → o.id ≠ id := by
      rintro hopen rfl
      obtain hin | ⟨hnone, -⟩ := (hfollows.current hopen).located
      · exact hne (Option.some.inj (hin.symm.trans hget))
      · rw [hget] at hnone
        cases hnone
    refine hfollows.mono (List.prefix_refl _) (fun hopen => ?_) (fun hopen => ?_) fun _ hlocated => hlocated
    · have hnone : Response.bytesFor o.id (x.emits id) = [] := by
        refine Response.bytesFor_of_ne fun r hr he => ?_
        exact hother hopen (he.symm.trans (TerminalSession.emits_terminalId hr))
      rw [hproduced, Response.bytesFor_append, hnone, List.append_nil]
    · rw [hproduced, Response.closedFor_append, TerminalSession.closedFor_emits, hstage]
      dsimp only [Stage.held]
      rw [hcount' o.id, if_neg (hother hopen)]
      rfl

/-! ## A poll -/

/-- The loop goes around to a poll. -/
theorem Inv.starts (h : s.Inv) (hidle : s.stage = .idle) : (s.goto .starting).Inv := by
  refine h.goes rfl rfl rfl (List.prefix_refl _) rfl ?_ ?_ nofun List.nodup_nil nofun nofun
  · intro id
    rw [hidle]
    rfl
  · intro id
    rw [hidle]
    exact Iff.rfl

/-- A poll that has nothing to report ends. -/
theorem Inv.returns (h : s.Inv) (hheld : s.stage.held = []) : s.returns.Inv := by
  have hkept : ∀ id, id ∉ s.stage.kept := by
    intro id hid
    have hmem := Stage.kept_subset hid
    rw [hheld] at hmem
    cases hmem
  refine h.goes rfl rfl rfl (List.prefix_append _ _) (List.append_nil _) ?_ ?_ nofun List.nodup_nil nofun
    fun _ => rfl
  · intro id
    rw [hheld]
    rfl
  · intro id
    exact ⟨nofun, fun hid => (hkept id hid).elim⟩

theorem Inv.readOutputs (h : s.Inv) {look : Look} (hstep : s.readOutputs look = some t) : t.Inv := by
  unfold Terminals.readOutputs at hstep
  cases hstage : s.stage with
  | idle =>
    rw [hstage] at hstep
    cases hstep
  | starting =>
    rw [hstage] at hstep
    obtain rfl := Option.some.inj hstep
    refine h.goes rfl rfl rfl (List.prefix_refl _) rfl ?_ ?_ nofun List.nodup_nil nofun nofun
    · intro id
      rw [hstage]
      rfl
    · intro id
      rw [hstage]
      exact Iff.rfl
  | snapshotting =>
    rw [hstage] at hstep
    dsimp only at hstep
    split at hstep
    · rename_i hlisted
      obtain rfl := Option.some.inj hstep
      refine h.goes rfl rfl rfl (List.prefix_refl _) rfl ?_ ?_ ?_ ?_ nofun nofun
      · intro id
        rw [hstage]
        rfl
      · intro id
        rw [hstage]
        exact Iff.rfl
      · intro q hq
        exact Assoc.get_of_mem h.keys (hlisted.mem_iff.mp hq)
      · dsimp only [goto, Stage.todo, Stage.held]
        rw [List.append_nil]
        exact (hlisted.map Prod.fst).nodup_iff.mpr h.keys
    · cases hstep
  | visiting todo closed =>
    rw [hstage] at hstep
    cases todo with
    | nil =>
      dsimp only at hstep
      split at hstep
      · rename_i hempty
        obtain rfl := Option.some.inj hstep
        refine h.returns ?_
        rw [hstage]
        exact List.isEmpty_iff.mp hempty
      · obtain rfl := Option.some.inj hstep
        refine h.goes rfl rfl rfl (List.prefix_refl _) rfl ?_ ?_ nofun ?_ nofun nofun
        · intro id
          rw [hstage]
          rfl
        · intro id
          rw [hstage]
          exact Iff.rfl
        · have hfresh := h.fresh
          rwa [hstage] at hfresh
    | cons q todo =>
      obtain ⟨id, σ⟩ := q
      dsimp only at hstep
      split at hstep
      · -- the session is not visited this time
        obtain rfl := Option.some.inj hstep
        refine h.goes rfl rfl rfl (List.prefix_refl _) rfl ?_ ?_ ?_ ?_ nofun nofun
        · intro i
          rw [hstage]
          rfl
        · intro i
          rw [hstage]
          exact Iff.rfl
        · intro q hq
          have htodo := h.todo
          rw [hstage] at htodo
          exact htodo q (List.mem_cons_of_mem _ hq)
        · have hfresh := h.fresh
          rw [hstage] at hfresh
          exact (List.nodup_cons.mp hfresh).2
      · obtain ⟨x, hx, rfl⟩ := Option.map_eq_some_iff.mp hstep
        exact h.visit hstage hx look
  | cloning closed =>
    rw [hstage] at hstep
    obtain rfl := Option.some.inj hstep
    refine h.goes rfl rfl rfl (List.prefix_refl _) rfl ?_ ?_ nofun ?_ ?_ nofun
    · intro id
      rw [hstage]
      rfl
    · intro id
      rw [hstage]
      exact Iff.rfl
    · have hfresh := h.fresh
      rwa [hstage] at hfresh
    · intro id _
      rfl
  | cleaning clone closed =>
    rw [hstage] at hstep
    cases closed with
    | nil =>
      obtain rfl := Option.some.inj hstep
      refine h.returns ?_
      rw [hstage]
      rfl
    | cons id closed =>
      have hheld : s.stage.held = id :: closed := by rw [hstage]; rfl
      have hkept : s.stage.kept = id :: closed := by rw [hstage]; rfl
      have htodo : s.stage.todo = [] := by rw [hstage]; rfl
      have hclone := h.clone
      rw [hstage] at hclone
      have hnot : id ∉ closed := h.kept_unmapped hheld
      obtain ⟨σ, x, hget, hx, hsent⟩ := h.kept id (by rw [hkept]; exact List.mem_cons_self ..)
      have hcloned : Assoc.get clone id = some σ := (hclone id (List.mem_cons_self ..)).trans hget
      have hrest : ∀ i ∈ closed, Assoc.get (Assoc.erase clone id) i = Assoc.get s.sessions i := by
        intro i hi
        rw [Assoc.get_erase, if_neg]
        · exact hclone i (List.mem_cons_of_mem _ hi)
        · rintro rfl
          exact hnot hi
      dsimp only at hstep
      rw [hcloned] at hstep
      dsimp only at hstep
      split at hstep
      · rw [hx, Option.map_some, if_pos hsent] at hstep
        obtain rfl := Option.some.inj hstep
        refine (h.shell hx x.readerFinished none).goes rfl rfl rfl (List.prefix_refl _) rfl ?_ ?_ nofun ?_ hrest
          nofun
        · intro i
          exact congrArg (List.count i) hheld.symm
        · intro i
          exact iff_of_eq (congrArg (i ∈ ·) hkept.symm)
        · have hfresh := h.fresh
          rwa [htodo, hheld] at hfresh
      · obtain rfl := Option.some.inj hstep
        exact h.unmaps htodo hheld hkept (Assoc.erase clone id) hrest σ
  | takingChild clone id ρ closed =>
    rw [hstage] at hstep
    obtain ⟨x, hx, rfl⟩ := Option.map_eq_some_iff.mp hstep
    exact (h.shell hx x.readerFinished none).reports hstage (x.exitCode look.waits)
  | unmapping clone id exitCode closed =>
    rw [hstage] at hstep
    obtain rfl := Option.some.inj hstep
    have hheld : s.stage.held = id :: closed := by rw [hstage]; rfl
    have hkept : s.stage.kept = id :: closed := by rw [hstage]; rfl
    have htodo : s.stage.todo = [] := by rw [hstage]; rfl
    have hclone := h.clone
    rw [hstage] at hclone
    exact (h.unmaps htodo hheld hkept (Assoc.erase clone id) hclone 0).reports rfl exitCode

end Terminals

end FontisRemote.Terminal
