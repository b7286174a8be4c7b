import FontisRemote.Terminal.Polls

/-!
# What a poll has in its hands

A poll has nothing yet for a session that it has still to visit. For one that it has found exited and has not
taken out of the map it has no Closed response, and the data is the end of what the session had output. So
the client may open such a session again: it gets that data and the Closed response, and no more.
-/

namespace FontisRemote.Terminal

open FontisRemote.Lib

namespace Terminals

variable {s t : Terminals} {σ : Nat} {x : TerminalSession} {id : Int} {closed : List Int}

/-- What the poll has for a session that it has found exited. -/
structure Has (responses : List Response) (id : Int) (x : TerminalSession) : Prop where
  suffix : Response.bytesFor id responses <:+ x.written
  unopened : x.opened = none → Response.bytesFor id responses = []

structure Hands (s : Terminals) : Prop where
  unopened : ∀ x ∈ s.arena, x.opened = none → x.streaming = false
  early : s.stage = .starting ∨ s.stage = .snapshotting → s.responses = []
  todo : ∀ q ∈ s.stage.todo, Response.bytesFor q.1 s.responses = [] ∧ Response.closedFor q.1 s.responses = 0
  closed : ∀ id ∈ s.stage.kept, Response.closedFor id s.responses = 0
  kept : ∀ id ∈ s.stage.kept, ∀ (σ : Nat) (x : TerminalSession), Assoc.get s.sessions id = some σ →
    s.arena[σ]? = some x → Has s.responses id x

/-! ## Frames -/

/-- With no poll under way only the sessions matter. -/
theorem Hands.idles (hunopened : ∀ x ∈ s.arena, x.opened = none → x.streaming = false) (hidle : s.stage = .idle) :
    s.Hands := by
  refine ⟨hunopened, ?_, ?_, ?_, ?_⟩ <;> rw [hidle]
  · rintro (he | he) <;> cases he
  · exact nofun
  · exact nofun
  · exact nofun

/-- Another session does as well where it has output the same, and is open if the first was. -/
theorem Has.same {responses : List Response} {y : TerminalSession} (h : Has responses id x)
    (hwritten : y.written = x.written) (hopened : y.opened = none → x.opened = none) : Has responses id y where
  suffix := hwritten ▸ h.suffix
  unopened hnone := h.unopened (hopened hnone)

/-- Steps that keep the poll where it is, and under what it has found exited the session. -/
theorem Hands.frame (h : s.Hands) (hstage : t.stage = s.stage) (hresponses : t.responses = s.responses)
    (hunopened : ∀ x ∈ t.arena, x.opened = none → x.streaming = false)
    (hkept : ∀ id ∈ s.stage.kept, ∀ (σ : Nat) (y : TerminalSession), Assoc.get t.sessions id = some σ →
      t.arena[σ]? = some y → ∃ x, Assoc.get s.sessions id = some σ ∧ s.arena[σ]? = some x ∧
        (Has s.responses id x → Has s.responses id y)) : t.Hands where
  unopened := hunopened
  early := by
    rw [hstage, hresponses]
    exact h.early
  todo := by
    rw [hstage, hresponses]
    exact h.todo
  closed := by
    rw [hstage, hresponses]
    exact h.closed
  kept id hid σ y hget hy := by
    rw [hstage] at hid
    obtain ⟨x, hget, hx, hhas⟩ := hkept id hid σ y hget hy
    rw [hresponses]
    exact hhas (h.kept id hid σ x hget hx)

/-- One session changes. -/
theorem Hands.set (h : s.Hands) {y : TerminalSession} (hx : s.arena[σ]? = some x)
    (hstreaming : y.opened = none → x.opened = none ∧ y.streaming = x.streaming)
    (hhas : ∀ id ∈ s.stage.kept, Assoc.get s.sessions id = some σ → Has s.responses id x → Has s.responses id y) :
    (s.set σ y).Hands := by
  refine h.frame rfl rfl (fun z hz hnone => ?_) fun id hid ρ z hget hz => ?_
  · obtain hz | rfl := List.mem_or_eq_of_mem_set hz
    · exact h.unopened z hz hnone
    · obtain ⟨hnone, hsame⟩ := hstreaming hnone
      exact hsame.trans (h.unopened x (List.mem_of_getElem? hx) hnone)
  · obtain ⟨rfl, rfl⟩ | ⟨-, hz⟩ := getElem?_set_eq_some hz
    · exact ⟨x, hget, hx, hhas id hid hget⟩
    · exact ⟨z, hget, hz, fun hhas => hhas⟩

theorem Hands.takes (h : s.Hands) (hx : s.arena[σ]? = some x) : (s.set σ x.takeChild).Hands :=
  h.set hx (fun hnone => ⟨hnone, rfl⟩) fun _ _ _ hhas => hhas.same rfl fun hnone => hnone

/-- The poll goes on with what it has found exited, or less. -/
theorem Hands.goes (h : s.Hands) (harena : t.arena = s.arena) (hresponses : t.responses = s.responses)
    (hearly : t.stage = .starting ∨ t.stage = .snapshotting → s.responses = [])
    (htodo : ∀ q ∈ t.stage.todo, q ∈ s.stage.todo ∨ s.responses = [])
    (hkept : ∀ id ∈ t.stage.kept, id ∈ s.stage.kept ∧
      ∀ σ, Assoc.get t.sessions id = some σ → Assoc.get s.sessions id = some σ) : t.Hands where
  unopened := harena ▸ h.unopened
  early := by
    rw [hresponses]
    exact hearly
  todo q hq := by
    rw [hresponses]
    obtain hq | hnone := htodo q hq
    · exact h.todo q hq
    · rw [hnone]
      exact ⟨rfl, rfl⟩
  closed id hid := by
    rw [hresponses]
    exact h.closed id (hkept id hid).1
  kept id hid σ x hget hx := by
    obtain ⟨hid, hsame⟩ := hkept id hid
    rw [harena] at hx
    rw [hresponses]
    exact h.kept id hid σ x (hsame σ hget) hx

/-! ## The poll -/

/-- A session that was taken out of the map is reported. -/
theorem Hands.reports (h : s.Hands) (hnot : id ∉ closed) (hkept : ∀ i ∈ closed, i ∈ s.stage.kept)
    (sessions clone : List (Int × Nat))
    (hsessions : ∀ i ∈ closed, Assoc.get sessions i = Assoc.get s.sessions i) (exitCode : Int) :
    Hands { s with
      sessions
      responses := s.responses ++ [.closed id exitCode]
      stage := .cleaning clone closed } := by
  refine ⟨h.unopened, ?_, nofun, fun i hi => ?_, fun i hi σ x hget hx => ?_⟩
  · rintro (he | he) <;> cases he
  · have hne : id ≠ i := fun he => hnot (he ▸ hi)
    dsimp only
    rw [Response.closedFor_append, Response.closedFor_closed, if_neg hne]
    exact h.closed i (hkept i hi)
  · have hhas := h.kept i (hkept i hi) σ x ((hsessions i hi).symm.trans hget) hx
    dsimp only at hhas ⊢
    constructor
    · rw [Response.bytesFor_append, Response.bytesFor_closed, List.append_nil]
      exact hhas.suffix
    · rw [Response.bytesFor_append, Response.bytesFor_closed, List.append_nil]
      exact hhas.unopened

/-- What a visit that finds the exit has for the session is the end of its output. -/
theorem Inv.emits_suffix (h : s.Inv) (hands : s.Hands) (hx : s.arena[σ]? = some x)
    (hunsent : x.closedMessageSent = false) (id : Int) :
    Response.bytesFor id (x.emits id) <:+ x.written ∧
      (x.opened = none → Response.bytesFor id (x.emits id) = []) := by
  cases ho : x.opened with
  | none =>
    have hsilent : Response.bytesFor id (x.emits id) = [] := by
      have hclosed := hands.unopened x (List.mem_of_getElem? hx) ho
      unfold TerminalSession.streaming at hclosed
      unfold TerminalSession.emits
      split at hclosed
      · rfl
      · cases hclosed
    exact ⟨hsilent ▸ List.nil_suffix, fun _ => hsilent⟩
  | some o =>
    have hfollows := h.follows σ x o hx ho
    have hopen : o.till = none := by
      cases htill : o.till with
      | none => rfl
      | some till => exact absurd (hunsent.symm.trans (hfollows.past till htill).closed) Bool.false_ne_true
    obtain ⟨history, ⟨front, hfront⟩, hall⟩ := (hfollows.current hopen).stream
    rw [x.toSend_of_unsent hunsent] at hall
    refine ⟨?_, nofun⟩
    rw [x.bytesFor_emits id hfollows.streaming]
    refine ⟨front ++ Response.bytesFor o.id (s.produced.drop o.mark), ?_⟩
    rw [List.append_assoc, hall, ← List.append_assoc, hfront, List.take_append_drop]

theorem Hands.visit {todo : List (Int × Nat)} (h : s.Hands) (hinv : s.Inv)
    (hstage : s.stage = .visiting ((id, σ) :: todo) closed) (hx : s.arena[σ]? = some x) (look : Look) :
    Hands { s with
      arena := s.arena.set σ (x.visited look)
      responses := s.responses ++ x.emits id
      stage := .visiting todo (if x.closes look then closed ++ [id] else closed) } := by
  have hget : Assoc.get s.sessions id = some σ := by
    have htodo := hinv.todo
    rw [hstage] at htodo
    exact htodo (id, σ) (List.mem_cons_self ..)
  have hnodup : (id :: (todo.map Prod.fst ++ closed)).Nodup := by
    have hfresh := hinv.fresh
    rwa [hstage] at hfresh
  have hnot : id ∉ todo.map Prod.fst ++ closed := (List.nodup_cons.mp hnodup).1
  have hkept : s.stage.kept = closed := by rw [hstage]; rfl
  -- what the visit sends is under its own id
  have hother : ∀ i, i ≠ id → Response.bytesFor i (s.responses ++ x.emits id) = Response.bytesFor i s.responses := by
    intro i hne
    have hsilent : Response.bytesFor i (x.emits id) = [] := by
      refine Response.bytesFor_of_ne fun r hr he => ?_
      exact hne (he.symm.trans (TerminalSession.emits_terminalId hr))
    rw [Response.bytesFor_append, hsilent, List.append_nil]
  have hnone : ∀ i, Response.closedFor i (s.responses ++ x.emits id) = Response.closedFor i s.responses := by
    intro i
    rw [Response.closedFor_append, TerminalSession.closedFor_emits, Nat.add_zero]
  have hfirst := h.todo (id, σ) (by rw [hstage]; exact List.mem_cons_self ..)
  have hmem : ∀ i ∈ (if x.closes look then closed ++ [id] else closed), i ∈ closed ∨ i = id ∧ x.closes look = true := by
    intro i hi
    split at hi
    · rename_i hcloses
      exact (List.mem_append.mp hi).imp_right fun hi => ⟨List.mem_singleton.mp hi, hcloses⟩
    · exact .inl hi
  refine ⟨fun z hz hopened => ?_, ?_, fun q hq => ?_, fun i hi => ?_, fun i hi ρ z hi' hz => ?_⟩
  · obtain hz | rfl := List.mem_or_eq_of_mem_set hz
    · exact h.unopened z hz hopened
    · exact (x.visited_streaming look).trans (h.unopened x (List.mem_of_getElem? hx) hopened)
  · rintro (he | he) <;> cases he
  · have hne : q.1 ≠ id := by
      rintro rfl
      exact hnot (List.mem_append_left _ (List.mem_map_of_mem hq))
    dsimp only
    rw [hother q.1 hne, hnone]
    refine h.todo q ?_
    rw [hstage]
    exact List.mem_cons_of_mem _ hq
  · dsimp only
    rw [hnone]
    obtain hi | ⟨rfl, -⟩ := hmem i hi
    · exact h.closed i (hkept ▸ hi)
    · exact hfirst.2
  · dsimp only at hi' hz ⊢
    obtain hmem | ⟨rfl, hcloses⟩ := hmem i hi
    · have hne : i ≠ id := fun he => hnot (List.mem_append_right _ (he ▸ hmem))
      have hz : s.arena[ρ]? = some z := by
        obtain ⟨rfl, -⟩ | ⟨-, hz⟩ := getElem?_set_eq_some hz
        · exact absurd (hinv.inj i id ρ hi' hget) hne
        · exact hz
      have hhas := h.kept i (hkept ▸ hmem) ρ z hi' hz
      constructor
      · rw [hother i hne]
        exact hhas.suffix
      · rw [hother i hne]
        exact hhas.unopened
    · obtain rfl := Option.some.inj (hget.symm.trans hi')
      have hunsent : x.closedMessageSent = false := by
        unfold TerminalSession.closes at hcloses
        exact Bool.not_eq_true' _ |>.mp (Bool.and_eq_true_iff.mp hcloses).1
      obtain ⟨hsuffix, hsilent⟩ := hinv.emits_suffix h hx hunsent i
      rw [List.getElem?_set_self (List.getElem?_eq_some_iff.mp hx).1] at hz
      obtain rfl := Option.some.inj hz
      constructor
      · rw [Response.bytesFor_append, hfirst.1, List.nil_append]
        exact hsuffix
      · rw [Response.bytesFor_append, hfirst.1, List.nil_append]
        exact hsilent

/-- The next session to be taken out of the map is there, as it was when the map was copied. -/
theorem Inv.cleaned {clone : List (Int × Nat)} (h : s.Inv) (hat : s.stage = .cleaning clone (id :: closed)) :
    ∃ ρ z, Assoc.get s.sessions id = some ρ ∧ s.arena[ρ]? = some z ∧ z.closedMessageSent = true ∧
      Assoc.get clone id = some ρ := by
  have hclone := h.clone
  rw [hat] at hclone
  have hkept : id ∈ s.stage.kept := by
    rw [hat]
    exact List.mem_cons_self ..
  obtain ⟨ρ, z, hget, hz, hflag⟩ := h.kept id hkept
  exact ⟨ρ, z, hget, hz, hflag, (hclone id (List.mem_cons_self ..)).trans hget⟩

theorem Hands.readOutputs (h : s.Hands) (hinv : s.Inv) {look : Look} (hstep : s.readOutputs look = some t) :
    t.Hands := by
  unfold Terminals.readOutputs at hstep
  cases hstage : s.stage with
  | idle =>
    rw [hstage] at hstep
    cases hstep
  | starting =>
    rw [hstage] at hstep
    obtain rfl := Option.some.inj hstep
    exact h.goes rfl rfl (fun _ => h.early (.inl hstage)) nofun nofun
  | snapshotting =>
    rw [hstage] at hstep
    dsimp only at hstep
    split at hstep
    · obtain rfl := Option.some.inj hstep
      exact h.goes rfl rfl (fun _ => h.early (.inr hstage)) (fun _ _ => .inr (h.early (.inr hstage))) nofun
    · cases hstep
  | visiting todo closed =>
    rw [hstage] at hstep
    cases todo with
    | nil =>
      dsimp only at hstep
      split at hstep
      · obtain rfl := Option.some.inj hstep
        exact .idles h.unopened rfl
      · obtain rfl := Option.some.inj hstep
        refine h.goes rfl rfl ?_ nofun fun id hid => ⟨?_, fun _ => fun hget => hget⟩
        · rintro (he | he) <;> cases he
        · rw [hstage]
          exact hid
    | cons q todo =>
      obtain ⟨id, σ⟩ := q
      dsimp only at hstep
      split at hstep
      · obtain rfl := Option.some.inj hstep
        refine h.goes rfl rfl ?_ (fun q hq => .inl ?_) fun id hid => ⟨?_, fun _ => fun hget => hget⟩
        · rintro (he | he) <;> cases he
        · rw [hstage]
          exact List.mem_cons_of_mem _ hq
        · rw [hstage]
          exact hid
      · obtain ⟨x, hx, rfl⟩ := Option.map_eq_some_iff.mp hstep
        exact h.visit hinv hstage hx look
  | cloning closed =>
    rw [hstage] at hstep
    obtain rfl := Option.some.inj hstep
    refine h.goes rfl rfl ?_ nofun fun id hid => ⟨?_, fun _ => fun hget => hget⟩
    · rintro (he | he) <;> cases he
    · rw [hstage]
      exact hid
  | cleaning clone closed =>
    rw [hstage] at hstep
    cases closed with
    | nil =>
      obtain rfl := Option.some.inj hstep
      exact .idles h.unopened rfl
    | cons id closed =>
      obtain ⟨σ, x, hget, hx, hsent, hcloned⟩ := hinv.cleaned hstage
      dsimp only at hstep
      rw [hcloned] at hstep
      dsimp only at hstep
      split at hstep
      · rw [hx, Option.map_some, if_pos hsent] at hstep
        obtain rfl := Option.some.inj hstep
        refine (h.takes hx).goes rfl rfl ?_ nofun fun i hi => ⟨?_, fun _ => fun hget => hget⟩
        · rintro (he | he) <;> cases he
        · dsimp only [Terminals.set]
          rw [hstage]
          exact hi
      · obtain rfl := Option.some.inj hstep
        refine h.goes rfl rfl ?_ nofun fun i hi => ⟨?_, fun σ hσ => ?_⟩
        · rintro (he | he) <;> cases he
        · rw [hstage]
          exact List.mem_cons_of_mem _ hi
        · dsimp only at hσ
          rw [Assoc.get_erase] at hσ
          split at hσ
          · cases hσ
          · exact hσ
  | takingChild clone id ρ closed =>
    rw [hstage] at hstep
    obtain ⟨x, hx, rfl⟩ := Option.map_eq_some_iff.mp hstep
    have hheld : s.stage.held = id :: closed := by rw [hstage]; rfl
    refine (h.takes hx).reports (hinv.kept_unmapped hheld) (fun i hi => ?_) s.sessions clone (fun _ _ => rfl) _
    dsimp only [Terminals.set]
    rw [hstage]
    exact hi
  | unmapping clone id exitCode closed =>
    rw [hstage] at hstep
    obtain rfl := Option.some.inj hstep
    have hheld : s.stage.held = id :: closed := by rw [hstage]; rfl
    have hnot : id ∉ closed := hinv.kept_unmapped hheld
    refine h.reports hnot (fun i hi => ?_) (Assoc.erase s.sessions id) (Assoc.erase clone id) (fun i hi => ?_) exitCode
    · rw [hstage]
      exact List.mem_cons_of_mem _ hi
    · rw [Assoc.get_erase, if_neg]
      rintro rfl
      exact hnot hi

end Terminals

end FontisRemote.Terminal
