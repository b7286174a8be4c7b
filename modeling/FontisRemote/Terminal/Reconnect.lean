import FontisRemote.Terminal.Hands

/-!
# Opening a terminal again

Between two regions of a poll the client may open a terminal. This keeps the invariant where the poll has
nothing in its hands under the id that is opened, or has found the session under it exited and not taken
it out of the map, and nothing to do with the session under the id it is remapped from (`Orderly`).
-/

namespace FontisRemote.Terminal

open FontisRemote.Lib

namespace TerminalSession

variable {x : TerminalSession} {terminalId : Int} {returned : Nat} {o : Opened}

theorem Drained.output (h : x.Drained) (data : Bytes) :
    { x with outputRx := x.outputRx ++ [data], written := x.written ++ data }.Drained := by
  obtain ⟨taken, hwritten, hbuffer⟩ := h
  refine ⟨taken, ?_, hbuffer⟩
  dsimp only
  rw [List.flatten_append, List.flatten_singleton, ← List.append_assoc, hwritten]

theorem superseded_of_none (h : x.opened = none) : x.superseded terminalId returned = x := by
  obtain ⟨outputBuffer, outputRx, state, sent, finished, child, written, opened⟩ := x
  obtain rfl : opened = none := h
  rfl

/-- What the client has open under another id, or no more, stays as it is. -/
theorem superseded_of_ne (h : x.opened = some o) (hne : ¬ (o.id = terminalId ∧ o.till = none)) :
    x.superseded terminalId returned = x := by
  obtain ⟨outputBuffer, outputRx, state, sent, finished, child, written, opened⟩ := x
  obtain rfl : opened = some o := h
  unfold superseded
  rw [Option.map_some, if_neg hne]

end TerminalSession

namespace Stage

theorem clone_subset {stage : Stage} {id : Int} (h : id ∈ stage.clone.2) : id ∈ stage.held := by
  cases stage with
  | cleaning clone closed => exact h
  | takingChild clone i σ closed => exact List.mem_cons_of_mem _ h
  | unmapping clone i exitCode closed => exact List.mem_cons_of_mem _ h
  | _ => cases h

end Stage

namespace Terminals

variable {s t : Terminals} {σ : Nat} {x y : TerminalSession} {o : Opened} {terminalId : Int}

/-! ## The shell and the connection -/

theorem Inv.output (h : s.Inv) (hx : s.arena[σ]? = some x)
    (hopen : x.opened.isSome = true → x.closedMessageSent = false) (data : Bytes) :
    (s.set σ { x with outputRx := x.outputRx ++ [data], written := x.written ++ data }).Inv := by
  refine h.changes hx rfl rfl (fun hneeds => ⟨hneeds, rfl⟩) ((h.drained x (List.mem_of_getElem? hx)).output data)
    h.todo h.fresh h.clone h.quiet id (fun _ => .inl) (fun id hget => h.heard id σ x hget hx) (fun _ => id) ?_ ?_
  · intro o ho
    have hfollows := h.follows σ x o hx ho
    have hunsent : x.closedMessageSent = false := hopen (ho ▸ rfl)
    refine ⟨hfollows.streaming, hfollows.mark_le, ?_, fun htill => ?_, fun till htill => ?_⟩
    · rw [List.length_append]
      exact hfollows.before_le.trans (Nat.le_add_right _ _)
    · obtain ⟨hlocated, hstream, hcount⟩ := hfollows.current htill
      refine ⟨hlocated, ?_, hcount⟩
      have hmore := hstream.output hfollows.before_le data
      rw [x.toSend_of_unsent hunsent, List.append_assoc, List.append_assoc] at hmore
      have hnew : { x with outputRx := x.outputRx ++ [data], written := x.written ++ data }.toSend =
          x.pending ++ (x.outputRx ++ [data]).flatten := TerminalSession.toSend_of_unsent hunsent
      rw [hnew, List.flatten_append, List.flatten_singleton]
      exact hmore
    · exact absurd (hunsent.symm.trans (hfollows.past till htill).closed) Bool.false_ne_true
  · intro ρ z o _ hfollows
    exact hfollows.set σ

/-- With no poll under way, and nothing open, only the map matters. -/
theorem Inv.resets (h : s.Inv) (hidle : s.stage = .idle) (harena : t.arena = s.arena.map (·.reset))
    (hsessions : t.sessions = s.sessions ∨ t.sessions = []) (hstage : t.stage = s.stage)
    (hresponses : t.responses = s.responses) : t.Inv := by
  have hnone : ∀ z ∈ t.arena, z.opened = none := by
    intro z hz
    rw [harena] at hz
    obtain ⟨x, -, rfl⟩ := List.mem_map.mp hz
    rfl
  have hget : ∀ (i : Int) (σ : Nat), Assoc.get t.sessions i = some σ → Assoc.get s.sessions i = some σ := by
    intro i σ hi
    obtain hsame | hempty := hsessions
    · rwa [hsame] at hi
    · rw [hempty] at hi
      cases hi
  rw [hidle] at hstage
  refine ⟨?_, fun i j σ hi hj => h.inj i j σ (hget i σ hi) (hget j σ hj), fun i σ hi => ?_,
    fun _ => hnone, fun z hz => ?_, ?_, ?_, ?_, ?_, fun i σ z hi hz hsent => ?_, fun _ => ?_,
    fun σ z o hz ho => ?_⟩
  · obtain hsame | hempty := hsessions
    · rw [hsame]
      exact h.keys
    · rw [hempty]
      exact List.nodup_nil
  · rw [harena, List.length_map]
    exact h.bound i σ (hget i σ hi)
  · rw [harena] at hz
    obtain ⟨x, hx, rfl⟩ := List.mem_map.mp hz
    exact h.drained x hx
  · rw [hstage]
    exact nofun
  · rw [hstage]
    exact List.nodup_nil
  · rw [hstage]
    exact nofun
  · rw [hstage]
    exact nofun
  · rw [harena, List.getElem?_map] at hz
    obtain ⟨x, hx, rfl⟩ := Option.map_eq_some_iff.mp hz
    have hkept := h.heard i σ x (hget i σ hi) hx hsent
    rw [hidle] at hkept
    cases hkept
  · rw [hresponses]
    exact h.quiet hidle
  · rw [hnone z (List.mem_of_getElem? hz)] at ho
    cases ho

/-! ## An OpenTerminal -/

/-- What the new entry is: a session that nobody is to be told the exit of, with the end of its output to
be sent. -/
structure Opening (y : TerminalSession) (terminalId : Int) (returned : Nat) : Prop where
  drained : y.Drained
  streaming : y.streaming = true
  unsent : y.closedMessageSent = false
  opened : y.opened = some ⟨terminalId, y.written.length, returned, none⟩
  replay : y.pending ++ y.outputRx.flatten <:+ y.written

theorem Opening.follows (h : Opening y terminalId s.returned.length)
    (hget : Assoc.get t.sessions terminalId = some σ) (hreturned : t.returned = s.returned)
    (hresponses : t.responses = s.responses) (hbytes : Response.bytesFor terminalId s.responses = [])
    (hclosed : Response.closedFor terminalId s.responses = 0) (hheld : terminalId ∉ t.stage.held) :
    t.Follows σ y ⟨terminalId, y.written.length, s.returned.length, none⟩ := by
  have hproduced : t.produced.drop s.returned.length = s.responses := by
    unfold produced
    rw [hreturned, hresponses, List.drop_left]
  refine ⟨h.streaming, hreturned ▸ Nat.le_refl _, Nat.le_refl _, fun _ => ⟨.inl hget, ?_, ?_⟩, nofun⟩
  · dsimp only
    rw [hproduced, hbytes, List.nil_append, y.toSend_of_unsent h.unsent]
    refine ⟨y.pending ++ y.outputRx.flatten, ?_, ?_⟩
    · dsimp only
      rw [List.take_length]
      exact h.replay
    · dsimp only
      rw [List.drop_length, List.append_nil]
  · dsimp only
    rw [hproduced, hclosed, h.unsent, List.count_eq_zero.mpr hheld]
    rfl

/-- The client opens the id of a session that is gone: all that was to be sent of it has been. -/
theorem Follows.supersede (h : s.Follows σ x o) (hid : o.id = terminalId) (hopen : o.till = none)
    (hgone : Assoc.get s.sessions terminalId ≠ some σ) (hreturned : t.returned = s.returned)
    (hbytes : Response.bytesFor terminalId s.responses = [])
    (hclosed : Response.closedFor terminalId s.responses = 0) (hheld : terminalId ∉ s.stage.held)
    (ho : x.opened = some o) :
    (x.superseded terminalId s.returned.length).opened = some { o with till := some s.returned.length } ∧
      t.Follows σ (x.superseded terminalId s.returned.length) { o with till := some s.returned.length } := by
  obtain ⟨hlocated, hstream, hcount⟩ := h.current hopen
  have hsent : x.closedMessageSent = true := by
    obtain hin | ⟨-, hsent⟩ := hlocated
    · rw [hid] at hin
      exact absurd hin hgone
    · exact hsent
  have hproduced : s.produced.drop o.mark = s.returned.drop o.mark ++ s.responses := by
    unfold produced
    exact List.drop_append_of_le_length h.mark_le
  have hall : (t.returned.take s.returned.length).drop o.mark = s.returned.drop o.mark := by
    rw [hreturned, List.take_length]
  refine ⟨?_, h.streaming, hreturned ▸ h.mark_le, h.before_le, nofun, fun till htill => ?_⟩
  · unfold TerminalSession.superseded
    rw [ho, Option.map_some, if_pos ⟨hid, hopen⟩]
  · obtain rfl := Option.some.inj htill
    refine ⟨Nat.le_of_eq (congrArg List.length hreturned.symm), hsent, ?_, ?_⟩
    · dsimp only
      rw [hproduced, Response.bytesFor_append, hid, hbytes, x.toSend_of_sent hsent, List.append_nil,
        List.append_nil] at hstream
      rw [hall, hid]
      exact hstream
    · dsimp only
      rw [hproduced, Response.closedFor_append, hid, hclosed, List.count_eq_zero.mpr hheld, hsent] at hcount
      rw [hall, hid]
      exact hcount

/-- The session that the client gets is at `σ`; the others have at most become superseded. -/
theorem Inv.opens (h : s.Inv) (hopening : Opening y terminalId s.returned.length)
    (hσ : t.arena[σ]? = some y)
    (hrest : ∀ ρ, ρ ≠ σ → t.arena[ρ]? = s.arena[ρ]?.map (·.superseded terminalId s.returned.length))
    (hlength : s.arena.length ≤ t.arena.length) (hreturned : t.returned = s.returned)
    (hresponses : t.responses = s.responses) (hstage : t.stage = s.stage)
    (hsync : t.needsSessionSync = false) (hkeys : (t.sessions.map Prod.fst).Nodup)
    (hget : Assoc.get t.sessions terminalId = some σ)
    (hfrom : ∀ (i : Int) (ρ : Nat), i ≠ terminalId → Assoc.get t.sessions i = some ρ →
      Assoc.get s.sessions i = some ρ ∧ ρ ≠ σ)
    (hinHand : ∀ i, i ≠ terminalId → i ∈ s.stage.todo.map Prod.fst ∨ i ∈ s.stage.held →
      Assoc.get t.sessions i = Assoc.get s.sessions i)
    (hsame : (∀ z ∈ s.arena, z.opened = none) ∨
      ∀ i, i ≠ terminalId → Assoc.get t.sessions i = Assoc.get s.sessions i)
    (hwas : ∀ ρ, Assoc.get s.sessions terminalId = some ρ → ρ = σ)
    (hbytes : Response.bytesFor terminalId s.responses = [])
    (hclosed : Response.closedFor terminalId s.responses = 0) (hheld : terminalId ∉ s.stage.held) :
    t.Inv := by
  have hother : ∀ (i : Int) (ρ : Nat), Assoc.get t.sessions i = some ρ → ρ ≠ σ →
      i ≠ terminalId ∧ Assoc.get s.sessions i = some ρ := by
    intro i ρ hi hne
    have hid : i ≠ terminalId := by
      rintro rfl
      exact hne (Option.some.inj (hi.symm.trans hget))
    exact ⟨hid, (hfrom i ρ hid hi).1⟩
  have hfind : ∀ (ρ : Nat) (z' : TerminalSession), ρ ≠ σ → t.arena[ρ]? = some z' →
      ∃ z, s.arena[ρ]? = some z ∧ z' = z.superseded terminalId s.returned.length := by
    intro ρ z' hne hz'
    rw [hrest ρ hne] at hz'
    obtain ⟨z, hz, he⟩ := Option.map_eq_some_iff.mp hz'
    exact ⟨z, hz, he.symm⟩
  refine ⟨hkeys, fun i j ρ hi hj => ?_, fun i ρ hi => ?_, fun hneeds => ?_, fun z hz => ?_, fun q hq => ?_, ?_,
    fun i hi => ?_, fun i hi => ?_, fun i ρ z' hi hz' hsent => ?_, fun hidle => ?_, fun ρ z' o hz' ho => ?_⟩
  · by_cases hρ : ρ = σ
    · have hself : ∀ j, Assoc.get t.sessions j = some ρ → j = terminalId := by
        intro j hj
        by_contra hne
        exact (hfrom j ρ hne hj).2 hρ
      exact (hself i hi).trans (hself j hj).symm
    · exact h.inj i j ρ (hother i ρ hi hρ).2 (hother j ρ hj hρ).2
  · by_cases hρ : ρ = σ
    · rw [hρ]
      exact (List.getElem?_eq_some_iff.mp hσ).1
    · exact (h.bound i ρ (hother i ρ hi hρ).2).trans_le hlength
  · exact absurd (hsync.symm.trans hneeds) Bool.false_ne_true
  · obtain ⟨ρ, hρ⟩ := List.mem_iff_getElem?.mp hz
    by_cases hne : ρ = σ
    · rw [hne, hσ] at hρ
      rw [← Option.some.inj hρ]
      exact hopening.drained
    · obtain ⟨x, hx, rfl⟩ := hfind ρ z hne hρ
      exact h.drained x (List.mem_of_getElem? hx)
  · rw [hstage] at hq
    have htodo := h.todo q hq
    by_cases hid : q.1 = terminalId
    · rw [hid] at htodo ⊢
      rw [hget, hwas q.2 htodo]
    · rw [hinHand q.1 hid (.inl (List.mem_map_of_mem hq))]
      exact htodo
  · rw [hstage]
    exact h.fresh
  · rw [hstage] at hi
    have hmem := Stage.kept_subset hi
    have hid : i ≠ terminalId := fun he => hheld (he ▸ hmem)
    obtain ⟨ρ, z, hi, hz, hsent⟩ := h.kept i hi
    have hi' := (hinHand i hid (.inr hmem)).trans hi
    refine ⟨ρ, z.superseded terminalId s.returned.length, hi', ?_, hsent⟩
    rw [hrest ρ (hfrom i ρ hid hi').2, hz, Option.map_some]
  · rw [hstage] at hi ⊢
    have hmem := Stage.clone_subset hi
    rw [h.clone i hi, hinHand i (fun he => hheld (he ▸ hmem)) (.inr hmem)]
  · rw [hstage]
    by_cases hρ : ρ = σ
    · rw [hρ, hσ] at hz'
      rw [← Option.some.inj hz', hopening.unsent] at hsent
      cases hsent
    · obtain ⟨z, hz, rfl⟩ := hfind ρ z' hρ hz'
      exact h.heard i ρ z (hother i ρ hi hρ).2 hz hsent
  · rw [hresponses]
    exact h.quiet (hstage.symm.trans hidle)
  · by_cases hρ : ρ = σ
    · subst hρ
      obtain rfl := Option.some.inj (hσ.symm.trans hz')
      obtain rfl := Option.some.inj (hopening.opened.symm.trans ho)
      exact hopening.follows hget hreturned hresponses hbytes hclosed (hstage ▸ hheld)
    · obtain ⟨z, hz, rfl⟩ := hfind ρ z' hρ hz'
      cases hz' : z.opened with
      | none =>
        rw [TerminalSession.superseded_of_none hz', hz'] at ho
        cases ho
      | some o₂ =>
        have hfollows := h.follows ρ z o₂ hz hz'
        by_cases hcur : o₂.id = terminalId ∧ o₂.till = none
        · obtain ⟨hnew, hpast⟩ := hfollows.supersede (t := t) hcur.1 hcur.2 (fun he => hρ (hwas ρ he)) hreturned
            hbytes hclosed hheld hz'
          obtain rfl := Option.some.inj (hnew.symm.trans ho)
          exact hpast
        · rw [TerminalSession.superseded_of_ne hz' hcur] at ho ⊢
          obtain rfl := Option.some.inj (hz'.symm.trans ho)
          have hproduced : t.produced = s.produced := by
            unfold produced
            rw [hreturned, hresponses]
          refine hfollows.mono (hreturned ▸ List.prefix_refl _) (fun _ => ?_) (fun _ => ?_) fun hopen hlocated => ?_
          · rw [hproduced]
          · rw [hproduced, hstage]
          · have hid : o₂.id ≠ terminalId := fun he => hcur ⟨he, hopen⟩
            obtain hnone | hsame := hsame
            · rw [hnone z (List.mem_of_getElem? hz)] at hz'
              cases hz'
            · unfold Located at hlocated ⊢
              rwa [hsame o₂.id hid]

theorem opening_reconnect (hdrained : x.Drained) (hunsent : x.closedMessageSent = false) (terminalId : Int)
    (returned : Nat) :
    Opening ((x.superseded terminalId returned).reconnect ⟨terminalId, x.written.length, returned, none⟩)
      terminalId returned where
  drained := TerminalSession.Drained.reconnect _ (show (x.superseded terminalId returned).Drained from hdrained)
  streaming := rfl
  unsent := hunsent
  opened := rfl
  replay := TerminalSession.Drained.replay _ (show (x.superseded terminalId returned).Drained from hdrained)

theorem opening_new (terminalId : Int) (returned : Nat) :
    Opening (.new ⟨terminalId, 0, returned, none⟩) terminalId returned where
  drained := ⟨[], rfl, List.suffix_refl _⟩
  streaming := rfl
  unsent := rfl
  opened := rfl
  replay := List.suffix_refl _

theorem remapped_of_none (h : s.remapsFrom terminalId = none) : s.remapped terminalId = s.sessions := by
  unfold remapped
  rw [h]

/-- A remap is from a session there is, to an id there is none for, before anything is open. -/
theorem Inv.remaps (h : s.Inv) {lowest : Int} (hremap : s.remapsFrom terminalId = some lowest) :
    Assoc.get s.sessions terminalId = none ∧ (∀ z ∈ s.arena, z.opened = none) ∧
      ∃ σ, Assoc.get s.sessions lowest = some σ := by
  unfold remapsFrom at hremap
  split at hremap
  · rename_i hcond
    obtain ⟨hnone, hsync⟩ := Bool.and_eq_true_iff.mp hcond
    obtain ⟨⟨i, σ⟩, hmem, rfl⟩ := List.mem_map.mp (List.min?_mem hremap)
    exact ⟨Option.isNone_iff_eq_none.mp hnone, h.synced hsync, σ, Assoc.get_of_mem h.keys hmem⟩
  · cases hremap

theorem get_remapped {lowest : Int} (hremap : s.remapsFrom terminalId = some lowest) (i : Int) :
    Assoc.get (s.remapped terminalId) i =
      if i = terminalId then Assoc.get s.sessions lowest
      else if i = lowest then none else Assoc.get s.sessions i := by
  unfold remapped
  rw [hremap]
  dsimp only
  rw [Assoc.get_put, Assoc.get_erase]

theorem getElem?_supersede (ρ : Nat) :
    (s.supersede terminalId)[ρ]? = s.arena[ρ]?.map (·.superseded terminalId s.returned.length) :=
  List.getElem?_map

theorem length_supersede : (s.supersede terminalId).length = s.arena.length :=
  List.length_map _

/-- The sessions when the client gets the one at a place. -/
def reopened (s : Terminals) (terminalId : Int) (σ : Nat) : List TerminalSession :=
  (s.supersede terminalId).modify σ fun x => x.reconnect ⟨terminalId, x.written.length, s.returned.length, none⟩

theorem handleOpen_some {spawns : Bool} (hget : Assoc.get (s.remapped terminalId) terminalId = some σ) :
    s.handleOpen terminalId spawns = { s with
      arena := s.reopened terminalId σ
      sessions := s.remapped terminalId
      needsSessionSync := false } := by
  unfold Terminals.handleOpen
  rw [hget]
  rfl

theorem getElem?_reopened_self (hx : s.arena[σ]? = some x) :
    (s.reopened terminalId σ)[σ]? = some ((x.superseded terminalId s.returned.length).reconnect
      ⟨terminalId, x.written.length, s.returned.length, none⟩) := by
  unfold reopened
  rw [List.getElem?_modify_eq, getElem?_supersede, hx]
  rfl

theorem getElem?_reopened_of_ne {ρ : Nat} (hne : ρ ≠ σ) :
    (s.reopened terminalId σ)[ρ]? = s.arena[ρ]?.map (·.superseded terminalId s.returned.length) := by
  unfold reopened
  rw [List.getElem?_modify_ne _ _ hne.symm, getElem?_supersede]

theorem length_reopened : (s.reopened terminalId σ).length = s.arena.length := by
  unfold reopened
  rw [List.length_modify, length_supersede]

/-- What the client opens is at a place of its own. -/
theorem Inv.handleOpen (h : s.Inv) (spawns : Bool) (hbytes : Response.bytesFor terminalId s.responses = [])
    (hclosed : Response.closedFor terminalId s.responses = 0) (hheld : terminalId ∉ s.stage.held)
    (hlowest : ∀ lowest, s.remapsFrom terminalId = some lowest →
      lowest ∉ s.stage.todo.map Prod.fst ∧ lowest ∉ s.stage.held) :
    (s.handleOpen terminalId spawns).Inv := by
  have hfound : ∀ (i : Int) (σ : Nat), Assoc.get s.sessions i = some σ → i ∉ s.stage.held →
      ∃ x, s.arena[σ]? = some x ∧ x.Drained ∧ x.closedMessageSent = false := by
    intro i σ hi hnot
    have hlt : σ < s.arena.length := h.bound i σ hi
    have hx : s.arena[σ]? = some s.arena[σ] := List.getElem?_eq_getElem hlt
    refine ⟨_, hx, h.drained _ (List.mem_of_getElem? hx), ?_⟩
    by_contra hsent
    rw [Bool.not_eq_false] at hsent
    exact hnot (Stage.kept_subset (h.heard i σ _ hi hx hsent))
  cases hremap : s.remapsFrom terminalId with
  | none =>
    have hsame := remapped_of_none hremap
    cases hget : Assoc.get s.sessions terminalId with
    | some σ =>
      obtain ⟨x, hx, hdrained, hunsent⟩ := hfound terminalId σ hget hheld
      rw [handleOpen_some (hsame.symm ▸ hget), hsame]
      refine h.opens (opening_reconnect hdrained hunsent terminalId s.returned.length) (getElem?_reopened_self hx)
        (fun _ => getElem?_reopened_of_ne) length_reopened.ge rfl rfl rfl rfl h.keys hget
        (fun i ρ hi hρ => ⟨hρ, ?_⟩) (fun _ _ _ => rfl) (.inr fun _ _ => rfl) (fun ρ hρ => ?_) hbytes hclosed hheld
      · rintro rfl
        exact hi (h.inj i terminalId ρ hρ hget)
      · exact Option.some.inj (hρ.symm.trans hget)
    | none =>
      unfold Terminals.handleOpen
      rw [hsame, hget]
      dsimp only
      split
      · have hput : ∀ i, i ≠ terminalId → Assoc.get (Assoc.put s.sessions terminalId (some s.arena.length)) i =
            Assoc.get s.sessions i := by
          intro i hi
          rw [Assoc.get_put, if_neg hi]
        have hplace : s.arena.length = (s.supersede terminalId).length := length_supersede.symm
        refine h.opens (σ := s.arena.length) (opening_new terminalId s.returned.length) ?_ (fun ρ hne => ?_) ?_
          rfl rfl rfl rfl (Assoc.nodup_put h.keys terminalId (some s.arena.length)) ?_ (fun i ρ hi hρ => ?_)
          (fun i hi _ => hput i hi) (.inr hput) ?_ hbytes hclosed hheld
        · dsimp only
          rw [hplace, List.getElem?_concat_length]
        · dsimp only
          by_cases hlt : ρ < s.arena.length
          · rw [List.getElem?_append_left (hplace ▸ hlt), getElem?_supersede]
          · rw [List.getElem?_eq_none (Nat.not_lt.mp hlt), List.getElem?_eq_none]
            · rfl
            · rw [List.length_append, ← hplace, List.length_singleton]
              omega
        · dsimp only
          rw [List.length_append, ← hplace]
          exact Nat.le_add_right _ _
        · dsimp only
          rw [Assoc.get_put, if_pos rfl]
        · dsimp only at hρ
          rw [hput i hi] at hρ
          exact ⟨hρ, Nat.ne_of_lt (h.bound i ρ hρ)⟩
        · intro ρ hρ
          rw [hget] at hρ
          cases hρ
      · exact h
  | some lowest =>
    obtain ⟨hnone, hunopened, σ, hσ⟩ := h.remaps hremap
    obtain ⟨hnotTodo, hnotHeld⟩ := hlowest lowest hremap
    obtain ⟨x, hx, hdrained, hunsent⟩ := hfound lowest σ hσ hnotHeld
    have hget : Assoc.get (s.remapped terminalId) terminalId = some σ := by
      rw [get_remapped hremap, if_pos rfl, hσ]
    rw [handleOpen_some hget]
    refine h.opens (opening_reconnect hdrained hunsent terminalId s.returned.length) (getElem?_reopened_self hx)
      (fun _ => getElem?_reopened_of_ne) length_reopened.ge rfl rfl rfl rfl ?_ hget (fun i ρ hi hρ => ?_)
      (fun i hi hmem => ?_) (.inl hunopened) (fun ρ hρ => ?_) hbytes hclosed hheld
    · dsimp only
      unfold remapped
      rw [hremap]
      exact Assoc.nodup_put (Assoc.nodup_erase h.keys _) _ _
    · dsimp only at hρ
      rw [get_remapped hremap, if_neg hi] at hρ
      split at hρ
      · cases hρ
      · rename_i hne
        refine ⟨hρ, ?_⟩
        rintro rfl
        exact hne (h.inj i lowest ρ hρ hσ)
    · dsimp only
      rw [get_remapped hremap, if_neg hi, if_neg]
      rintro rfl
      exact hmem.elim hnotTodo hnotHeld
    · rw [hnone] at hρ
      cases hρ

/-- The client opens the id of a session that was found exited, before it is taken out of the map: the session is
to it what the poll has of it, with the report that is to come. -/
theorem Inv.reopens (h : s.Inv) (hands : s.Hands) (hkept : terminalId ∈ s.stage.kept) (spawns : Bool) :
    (s.handleOpen terminalId spawns).Inv := by
  obtain ⟨σ, x, hget, hx, hsent⟩ := h.kept terminalId hkept
  have hσ : σ < s.arena.length := (List.getElem?_eq_some_iff.mp hx).1
  have hsame : s.remapped terminalId = s.sessions := by
    refine remapped_of_none ?_
    unfold remapsFrom
    rw [hget]
    rfl
  set y := (x.superseded terminalId s.returned.length).reconnect
    ⟨terminalId, x.written.length, s.returned.length, none⟩ with hy
  -- the client has no other session open under the id
  have halone : ∀ (ρ : Nat) (z : TerminalSession), ρ ≠ σ → s.arena[ρ]? = some z →
      z.superseded terminalId s.returned.length = z := by
    intro ρ z hne hz
    cases ho : z.opened with
    | none => exact TerminalSession.superseded_of_none ho
    | some o =>
      refine TerminalSession.superseded_of_ne ho ?_
      rintro ⟨hid, hopen⟩
      obtain hin | ⟨hnone, -⟩ := ((h.follows ρ z o hz ho).current hopen).located
      · rw [hid, hget] at hin
        exact hne (Option.some.inj hin).symm
      · rw [hid, hget] at hnone
        cases hnone
  have harena : s.reopened terminalId σ = s.arena.set σ y := by
    refine List.ext_getElem? fun ρ => ?_
    by_cases hρ : ρ = σ
    · rw [hρ, getElem?_reopened_self hx, List.getElem?_set_self hσ]
    · rw [getElem?_reopened_of_ne hρ, List.getElem?_set_ne fun he => hρ he.symm]
      cases hz : s.arena[ρ]? with
      | none => rfl
      | some z => exact congrArg some (halone ρ z hρ hz)
  rw [handleOpen_some (hsame.symm ▸ hget), hsame]
  refine h.changes hx harena rfl (fun hneeds => absurd hneeds Bool.false_ne_true)
    (TerminalSession.Drained.reconnect _ (h.drained x (List.mem_of_getElem? hx))) h.todo h.fresh h.clone h.quiet
    (fun _ => hsent) (fun _ => .inl) (fun i hi _ => h.heard i σ x hi hx hsent) (fun _ hi => hi) (fun o ho => ?_)
    fun ρ z o _ hfollows => ?_
  · obtain rfl := Option.some.inj ho
    have hproduced : Terminals.produced { s with
        arena := s.reopened terminalId σ
        sessions := s.sessions
        needsSessionSync := false } = s.returned ++ s.responses := rfl
    have hreport : y.closedMessageSent = true := hsent
    refine ⟨rfl, Nat.le_refl _, Nat.le_refl _, fun _ => ⟨.inl hget, ?_, ?_⟩, nofun⟩
    · rw [y.toSend_of_sent hreport, hproduced, List.append_nil, List.drop_left]
      have hsuffix : Response.bytesFor terminalId s.responses <:+ y.written :=
        (hands.kept terminalId hkept σ x hget hx).suffix
      refine ⟨Response.bytesFor terminalId s.responses, ?_, ?_⟩
      · have hall : y.written.take x.written.length = y.written := List.take_length
        rwa [hall]
      · have hnone : y.written.drop x.written.length = [] := List.drop_length
        rw [hnone, List.append_nil]
    · have honce : s.stage.held.count terminalId = 1 :=
        List.count_eq_one_of_mem (List.nodup_append.mp h.fresh).2.1 (Stage.kept_subset hkept)
      dsimp only
      rw [hproduced, List.drop_left, hands.closed terminalId hkept, honce, hreport]
      rfl
  · exact hfollows.mono (List.prefix_refl _) (fun _ => rfl) (fun _ => rfl) fun _ hlocated => hlocated

/-- The sessions there were have output the same, and none is open less. -/
theorem getElem?_handleOpen {spawns : Bool} {ρ : Nat} {z : TerminalSession}
    (hz : (s.handleOpen terminalId spawns).arena[ρ]? = some z) :
    s.arena.length ≤ ρ ∧ z.opened ≠ none ∨
      ∃ x, s.arena[ρ]? = some x ∧ z.written = x.written ∧
        (z.opened = none → x.opened = none ∧ z.streaming = x.streaming) := by
  have hsuperseded : ∀ x : TerminalSession, (x.superseded terminalId s.returned.length).opened = none →
      x.opened = none := fun x => Option.map_eq_none_iff.mp
  cases hget : Assoc.get (s.remapped terminalId) terminalId with
  | some σ =>
    rw [handleOpen_some hget] at hz
    dsimp only at hz
    by_cases hρ : ρ = σ
    · subst hρ
      have hlt : ρ < s.arena.length := length_reopened ▸ (List.getElem?_eq_some_iff.mp hz).1
      have hx : s.arena[ρ]? = some s.arena[ρ] := List.getElem?_eq_getElem hlt
      rw [getElem?_reopened_self hx] at hz
      obtain rfl := Option.some.inj hz
      exact .inr ⟨_, hx, rfl, nofun⟩
    · rw [getElem?_reopened_of_ne hρ] at hz
      obtain ⟨x, hx, rfl⟩ := Option.map_eq_some_iff.mp hz
      exact .inr ⟨x, hx, rfl, fun hnone => ⟨hsuperseded x hnone, rfl⟩⟩
  | none =>
    unfold Terminals.handleOpen at hz
    rw [hget] at hz
    dsimp only at hz
    split at hz
    · by_cases hlt : ρ < s.arena.length
      · rw [List.getElem?_append_left (length_supersede.symm ▸ hlt), getElem?_supersede] at hz
        obtain ⟨x, hx, rfl⟩ := Option.map_eq_some_iff.mp hz
        exact .inr ⟨x, hx, rfl, fun hnone => ⟨hsuperseded x hnone, rfl⟩⟩
      · rw [List.getElem?_append_right (length_supersede.symm ▸ Nat.not_lt.mp hlt)] at hz
        obtain rfl := List.mem_singleton.mp (List.mem_of_getElem? hz)
        exact .inl ⟨Nat.not_lt.mp hlt, nofun⟩
    · exact .inr ⟨z, hz, rfl, fun hnone => ⟨hnone, rfl⟩⟩

/-- What the poll has found exited stays under its id. -/
theorem Inv.get_handleOpen (h : s.Inv) {id : Int} (hid : id ∈ s.stage.kept)
    (hlowest : ∀ lowest, s.remapsFrom terminalId = some lowest → lowest ∉ s.stage.held) (spawns : Bool) :
    Assoc.get (s.handleOpen terminalId spawns).sessions id = Assoc.get s.sessions id := by
  obtain ⟨σ, -, hget, -⟩ := h.kept id hid
  have hremapped : Assoc.get (s.remapped terminalId) id = Assoc.get s.sessions id := by
    cases hremap : s.remapsFrom terminalId with
    | none => rw [remapped_of_none hremap]
    | some lowest =>
      obtain ⟨hnone, -⟩ := h.remaps hremap
      rw [get_remapped hremap, if_neg, if_neg]
      · rintro rfl
        exact hlowest id hremap (Stage.kept_subset hid)
      · rintro rfl
        rw [hnone] at hget
        cases hget
  unfold Terminals.handleOpen
  split
  · exact hremapped
  · rename_i hmissing
    split
    · dsimp only
      rw [Assoc.get_put, if_neg]
      rintro rfl
      rw [hremapped, hget] at hmissing
      cases hmissing
    · rfl

theorem handleOpen_poll (spawns : Bool) : (s.handleOpen terminalId spawns).stage = s.stage ∧
    (s.handleOpen terminalId spawns).responses = s.responses := by
  unfold Terminals.handleOpen
  split
  · exact ⟨rfl, rfl⟩
  · split <;> exact ⟨rfl, rfl⟩

theorem Hands.handleOpen (h : s.Hands) (hinv : s.Inv)
    (hlowest : ∀ lowest, s.remapsFrom terminalId = some lowest → lowest ∉ s.stage.held) (spawns : Bool) :
    (s.handleOpen terminalId spawns).Hands := by
  obtain ⟨hstage, hresponses⟩ := handleOpen_poll (s := s) spawns
  refine h.frame hstage hresponses (fun z hz hnone => ?_) fun id hid σ z hget hz => ?_
  · obtain ⟨ρ, hρ⟩ := List.mem_iff_getElem?.mp hz
    obtain ⟨-, hopened⟩ | ⟨x, hx, -, hsame⟩ := getElem?_handleOpen hρ
    · exact absurd hnone hopened
    · obtain ⟨hnone, hstreaming⟩ := hsame hnone
      exact hstreaming.trans (h.unopened x (List.mem_of_getElem? hx) hnone)
  · rw [hinv.get_handleOpen hid hlowest] at hget
    obtain ⟨hle, -⟩ | ⟨x, hx, hwritten, hsame⟩ := getElem?_handleOpen hz
    · exact absurd (hinv.bound id σ hget) (Nat.not_lt.mpr hle)
    · exact ⟨x, hget, hx, fun hhas => hhas.same hwritten fun hnone => (hsame hnone).1⟩

/-! ## A run -/

/-- The steps that do not come between two regions of a poll to something the poll has in its hands: an
OpenTerminal meets nothing under its id, and leaves the session that it remaps no visit and no report
under its old one, or it meets a session found exited and not yet taken out of the map; and nothing is output
by a shell that has been found exited. -/
def Orderly (s : Terminals) : Event → Prop
  | .output σ _ => ∀ x ∈ s.arena[σ]?, x.opened.isSome = true → x.closedMessageSent = false
  | .opens terminalId _ =>
    terminalId ∈ s.stage.kept ∨
      Response.bytesFor terminalId s.responses = [] ∧ Response.closedFor terminalId s.responses = 0 ∧
        terminalId ∉ s.stage.held ∧ ∀ lowest ∈ s.remapsFrom terminalId,
          lowest ∉ s.stage.todo.map Prod.fst ∧ lowest ∉ s.stage.held
  | _ => True

instance (s : Terminals) (e : Event) : Decidable (s.Orderly e) :=
  match e with
  | .output σ _ =>
    inferInstanceAs (Decidable (∀ x ∈ s.arena[σ]?, x.opened.isSome = true → x.closedMessageSent = false))
  | .opens terminalId _ =>
    inferInstanceAs (Decidable (terminalId ∈ s.stage.kept ∨
      Response.bytesFor terminalId s.responses = [] ∧ Response.closedFor terminalId s.responses = 0 ∧
        terminalId ∉ s.stage.held ∧ ∀ lowest ∈ s.remapsFrom terminalId,
          lowest ∉ s.stage.todo.map Prod.fst ∧ lowest ∉ s.stage.held))
  | .readerEnds _ => isTrue trivial
  | .childExits _ _ => isTrue trivial
  | .attaches _ => isTrue trivial
  | .disconnects => isTrue trivial
  | .removes => isTrue trivial
  | .setPersistent _ => isTrue trivial
  | .pollStarts => isTrue trivial
  | .polls _ => isTrue trivial

theorem Inv.step {e : Event} (h : s.Inv) (hands : s.Hands) (horderly : s.Orderly e)
    (hstep : s.step e = some t) : t.Inv := by
  cases e with
  | output σ data =>
    obtain ⟨x, hx, rfl⟩ := Option.map_eq_some_iff.mp hstep
    have hx : s.arena[σ]? = some x := (Option.filter_eq_some_iff.mp hx).1
    exact h.output hx (horderly x hx) data
  | readerEnds σ =>
    obtain ⟨x, hx, rfl⟩ := Option.map_eq_some_iff.mp hstep
    exact h.shell hx true x.child
  | childExits σ exitCode =>
    obtain ⟨x, hx, rfl⟩ := Option.map_eq_some_iff.mp hstep
    have hx : s.arena[σ]? = some x := (Option.filter_eq_some_iff.mp hx).1
    exact h.shell hx x.readerFinished (some (some exitCode))
  | attaches isPersistent =>
    dsimp only [Terminals.step] at hstep
    split at hstep
    · rename_i hidle
      obtain rfl := Option.some.inj hstep
      exact h.resets hidle.2 rfl (.inl rfl) rfl rfl
    · cases hstep
  | disconnects =>
    obtain rfl := Option.some.inj hstep
    exact h.goes rfl rfl rfl (List.prefix_refl _) rfl (fun _ => rfl) (fun _ => Iff.rfl) h.todo h.fresh h.clone
      h.quiet
  | removes =>
    dsimp only [Terminals.step] at hstep
    split at hstep
    · rename_i hidle
      obtain rfl := Option.some.inj hstep
      exact h.resets hidle.2.1 rfl (.inr rfl) rfl rfl
    · cases hstep
  | setPersistent isPersistent =>
    obtain rfl := Option.some.inj hstep
    exact h.goes rfl rfl rfl (List.prefix_refl _) rfl (fun _ => rfl) (fun _ => Iff.rfl) h.todo h.fresh h.clone
      h.quiet
  | opens terminalId spawns =>
    dsimp only [Terminals.step] at hstep
    split at hstep
    · obtain rfl := Option.some.inj hstep
      obtain hkept | ⟨hbytes, hclosed, hheld, hlowest⟩ := horderly
      · exact h.reopens hands hkept spawns
      · exact h.handleOpen spawns hbytes hclosed hheld hlowest
    · cases hstep
  | pollStarts =>
    dsimp only [Terminals.step] at hstep
    split at hstep
    · rename_i hidle
      obtain rfl := Option.some.inj hstep
      exact h.starts hidle.2
    · cases hstep
  | polls look => exact h.readOutputs hstep

theorem Hands.step {e : Event} (h : s.Hands) (hinv : s.Inv) (horderly : s.Orderly e)
    (hstep : s.step e = some t) : t.Hands := by
  have hstays : ∀ u : Terminals, u.arena = s.arena → u.sessions = s.sessions → u.stage = s.stage →
      u.responses = s.responses → u.Hands := by
    intro u harena hsessions hstage hresponses
    refine h.frame hstage hresponses (harena ▸ h.unopened) fun id _ σ x hget hx => ?_
    rw [hsessions] at hget
    rw [harena] at hx
    exact ⟨x, hget, hx, fun hhas => hhas⟩
  have hresets : ∀ z ∈ s.arena.map (·.reset), z.opened = none → z.streaming = false := by
    intro z hz _
    obtain ⟨x, -, rfl⟩ := List.mem_map.mp hz
    rfl
  cases e with
  | output σ data =>
    obtain ⟨x, hx, rfl⟩ := Option.map_eq_some_iff.mp hstep
    have hx : s.arena[σ]? = some x := (Option.filter_eq_some_iff.mp hx).1
    refine h.set hx (fun hnone => ⟨hnone, rfl⟩) fun id hid hget hhas => ?_
    -- a session found exited that puts more out is not open
    obtain ⟨ρ, z, hgetz, hz, hsent⟩ := hinv.kept id hid
    obtain rfl := Option.some.inj (hget.symm.trans hgetz)
    obtain rfl := Option.some.inj (hx.symm.trans hz)
    have hnone : x.opened = none := by
      by_contra hopened
      rw [horderly x hx (Option.isSome_iff_ne_none.mpr hopened)] at hsent
      cases hsent
    have hsilent := hhas.unopened hnone
    constructor
    · rw [hsilent]
      exact List.nil_suffix
    · exact fun _ => hsilent
  | readerEnds σ =>
    obtain ⟨x, hx, rfl⟩ := Option.map_eq_some_iff.mp hstep
    exact h.set hx (fun hnone => ⟨hnone, rfl⟩) fun _ _ _ hhas => hhas.same rfl fun hnone => hnone
  | childExits σ exitCode =>
    obtain ⟨x, hx, rfl⟩ := Option.map_eq_some_iff.mp hstep
    have hx : s.arena[σ]? = some x := (Option.filter_eq_some_iff.mp hx).1
    exact h.set hx (fun hnone => ⟨hnone, rfl⟩) fun _ _ _ hhas => hhas.same rfl fun hnone => hnone
  | attaches isPersistent =>
    dsimp only [Terminals.step] at hstep
    split at hstep
    · rename_i hidle
      obtain rfl := Option.some.inj hstep
      exact .idles hresets hidle.2
    · cases hstep
  | disconnects =>
    obtain rfl := Option.some.inj hstep
    exact hstays _ rfl rfl rfl rfl
  | removes =>
    dsimp only [Terminals.step] at hstep
    split at hstep
    · rename_i hidle
      obtain rfl := Option.some.inj hstep
      exact .idles hresets hidle.2.1
    · cases hstep
  | setPersistent isPersistent =>
    obtain rfl := Option.some.inj hstep
    exact hstays _ rfl rfl rfl rfl
  | opens terminalId spawns =>
    dsimp only [Terminals.step] at hstep
    split at hstep
    · obtain rfl := Option.some.inj hstep
      refine h.handleOpen hinv (fun lowest hremap => ?_) spawns
      obtain hkept | ⟨-, -, -, hlowest⟩ := horderly
      · obtain ⟨σ, -, hget, -⟩ := hinv.kept terminalId hkept
        rw [(hinv.remaps hremap).1] at hget
        cases hget
      · exact (hlowest lowest hremap).2
    · cases hstep
  | pollStarts =>
    dsimp only [Terminals.step] at hstep
    split at hstep
    · rename_i hidle
      obtain rfl := Option.some.inj hstep
      exact h.goes rfl rfl (fun _ => hinv.quiet hidle.2) nofun nofun
    · cases hstep
  | polls look => exact h.readOutputs hinv hstep

theorem inv_of_init (h : Init s) : s.Inv := by
  obtain ⟨arena, sessions, needsSessionSync, isPersistent, attached, stage, persistent, responses, returned⟩ := s
  simp only [Init, Terminals.mk.injEq] at h
  obtain ⟨rfl, rfl, rfl, -, rfl, rfl, rfl, rfl, rfl⟩ := h
  refine ⟨List.nodup_nil, fun i j σ hi => ?_, fun i σ hi => ?_, fun _ x hx => ?_, fun x hx => ?_, fun q hq => ?_,
    List.nodup_nil, fun id hid => ?_, fun id hid => ?_, fun id σ x hid => ?_, fun _ => rfl, fun σ x o hx => ?_⟩
  · cases hi
  · cases hi
  · cases hx
  · cases hx
  · cases hq
  · cases hid
  · cases hid
  · cases hid
  · cases hx

theorem hands_of_init (h : Init s) : s.Hands := by
  obtain ⟨arena, sessions, needsSessionSync, isPersistent, attached, stage, persistent, responses, returned⟩ := s
  simp only [Init, Terminals.mk.injEq] at h
  obtain ⟨rfl, rfl, rfl, -, rfl, rfl, rfl, rfl, rfl⟩ := h
  exact .idles nofun rfl

theorem inv_of_exec {history : List (Terminals × Event)} (hx : Exec Init step history s)
    (horderly : ∀ p ∈ history, Orderly p.1 p.2) : s.Inv ∧ s.Hands :=
  hx.invariant_of (I := fun s => s.Inv ∧ s.Hands) (G := Orderly) (fun _ h => ⟨inv_of_init h, hands_of_init h⟩)
    (fun _ _ _ hinv hstep' hstep => ⟨hinv.1.step hinv.2 hstep' hstep, hinv.2.step hinv.1 hstep' hstep⟩) horderly

end Terminals

end FontisRemote.Terminal
