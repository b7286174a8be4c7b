import FontisRemote.Terminal.Reconnect

/-!
# What the client of a terminal gets

In a run whose steps are `Orderly`, a client that opens a session gets the end of its history and then all
of its output, and one Closed response when its shell has exited, after which the session is gone. A poll
ends by itself, and one that meets no locked session reports every shell that has exited before it.
-/

namespace FontisRemote.Terminal

open FontisRemote.Lib

/-- A visit that finds the session unlocked and, where the reader thread goes on, the child's exit. -/
structure Look.Finds (waits : Bool) (look : Look) : Prop where
  unlocked : look.locked = false
  waits : waits = true → look.waits = true

theorem TerminalSession.exited_of_finds {x : TerminalSession} {waits : Bool} {look : Look}
    (hlook : look.Finds waits) (h : x.exited waits = true) : x.exited look.waits = true := by
  unfold exited at h ⊢
  cases hw : waits with
  | true =>
    rw [hw] at h
    rwa [hlook.waits hw]
  | false =>
    rw [hw, Bool.false_and, Bool.or_false] at h
    rw [h, Bool.true_or]

namespace Terminals

variable {s t : Terminals} {σ : Nat} {x : TerminalSession} {o : Opened} {waits : Bool} {look : Look}

/-! ## To the end of a poll -/

/-- At most how many regions the poll has before it. -/
def regions (s : Terminals) : Nat :=
  match s.stage with
  | .idle => 0
  | .starting => 5 + 3 * s.sessions.length
  | .snapshotting => 4 + 3 * s.sessions.length
  | .visiting todo closed => 3 + 3 * todo.length + 2 * closed.length
  | .cloning closed => 2 + 2 * closed.length
  | .cleaning _ closed => 1 + 2 * closed.length
  | .takingChild _ _ _ closed => 2 + 2 * closed.length
  | .unmapping _ _ _ closed => 2 + 2 * closed.length

/-- The poll is going to visit a session. -/
def Awaits (s : Terminals) (σ : Nat) (id : Int) : Prop :=
  match s.stage with
  | .starting => Assoc.get s.sessions id = some σ
  | .snapshotting => Assoc.get s.sessions id = some σ
  | .visiting todo _ => (id, σ) ∈ todo
  | _ => False

/-- A poll that reports, or has reported, that the shell of a session has exited. -/
structure Reporting (s : Terminals) (waits : Bool) (σ : Nat) (o : Opened) : Prop where
  inv : s.Inv
  taking : ∀ (clone : List (Int × Nat)) (id : Int) (ρ : Nat) (closed : List Int),
    s.stage = .takingChild clone id ρ closed → ρ < s.arena.length
  session : ∃ x, s.arena[σ]? = some x ∧ x.opened = some o ∧
    (x.closedMessageSent = true ∨ x.exited waits = true ∧ s.Awaits σ o.id)

/-- A session that is not visited stays, but for its child. -/
theorem Reporting.takes (h : s.Reporting waits σ o) {ρ : Nat} {z : TerminalSession} (hz : s.arena[ρ]? = some z)
    (hnone : ¬ s.Awaits σ o.id) :
    ∃ x, (s.arena.set ρ z.takeChild)[σ]? = some x ∧ x.opened = some o ∧ x.closedMessageSent = true := by
  obtain ⟨x, hx, ho, hsent | ⟨-, hawaits⟩⟩ := h.session
  · by_cases hρ : ρ = σ
    · subst hρ
      obtain rfl := Option.some.inj (hx.symm.trans hz)
      exact ⟨_, List.getElem?_set_self (List.getElem?_eq_some_iff.mp hx).1, ho, hsent⟩
    · exact ⟨x, (List.getElem?_set_ne hρ).trans hx, ho, hsent⟩
  · exact absurd hawaits hnone

/-- The next region of such a poll, with what it may meet. -/
theorem Reporting.readOutputs (h : s.Reporting waits σ o) (hlook : look.Finds waits)
    (hstep : s.readOutputs look = some t) : t.Reporting waits σ o ∧ t.regions < s.regions := by
  have hnext : t.Inv := h.inv.readOutputs hstep
  have hwhole := h
  obtain ⟨hinv, htaking, x, hx, ho, hcase⟩ := h
  unfold Terminals.readOutputs at hstep
  unfold Awaits at hcase
  unfold regions
  cases hat : s.stage with
  | idle =>
    rw [hat] at hstep
    cases hstep
  | starting =>
    rw [hat] at hstep hcase
    obtain rfl := Option.some.inj hstep
    refine ⟨⟨hnext, nofun, x, hx, ho, hcase⟩, ?_⟩
    dsimp only
    omega
  | snapshotting =>
    rw [hat] at hstep hcase
    dsimp only at hstep hcase
    split at hstep
    · rename_i hlisted
      obtain rfl := Option.some.inj hstep
      refine ⟨⟨hnext, nofun, x, hx, ho, ?_⟩, ?_⟩
      · obtain hsent | ⟨hexited, hget⟩ := hcase
        · exact .inl hsent
        · exact .inr ⟨hexited, hlisted.mem_iff.mpr (Assoc.mem_of_get hget)⟩
      · dsimp only [goto]
        rw [List.length_nil, hlisted.length_eq]
        omega
    · cases hstep
  | visiting todo closed =>
    rw [hat] at hstep hcase
    cases todo with
    | nil =>
      have hsent : x.closedMessageSent = true := by
        obtain hsent | ⟨-, hmem⟩ := hcase
        · exact hsent
        · cases hmem
      dsimp only at hstep
      split at hstep
      · obtain rfl := Option.some.inj hstep
        refine ⟨⟨hnext, nofun, x, hx, ho, .inl hsent⟩, ?_⟩
        dsimp only [Terminals.returns]
        omega
      · obtain rfl := Option.some.inj hstep
        refine ⟨⟨hnext, nofun, x, hx, ho, .inl hsent⟩, ?_⟩
        dsimp only [goto]
        omega
    | cons q todo =>
      obtain ⟨id, ρ⟩ := q
      dsimp only at hstep hcase
      rw [hlook.unlocked, if_neg Bool.false_ne_true] at hstep
      obtain ⟨z, hz, rfl⟩ := Option.map_eq_some_iff.mp hstep
      refine ⟨⟨hnext, nofun, ?_⟩, ?_⟩
      · dsimp only
        by_cases hρ : ρ = σ
        · subst hρ
          obtain rfl := Option.some.inj (hx.symm.trans hz)
          refine ⟨_, List.getElem?_set_self (List.getElem?_eq_some_iff.mp hx).1, ho, .inl ?_⟩
          obtain hsent | ⟨hexited, -⟩ := hcase
          · dsimp only [TerminalSession.visited]
            rw [hsent, Bool.true_or]
          · dsimp only [TerminalSession.visited, TerminalSession.closes]
            rw [x.exited_of_finds hlook hexited, Bool.and_true, Bool.or_not_self]
        · refine ⟨x, (List.getElem?_set_ne hρ).trans hx, ho, hcase.imp_right fun hawaits => ⟨hawaits.1, ?_⟩⟩
          obtain he | hmem := List.mem_cons.mp hawaits.2
          · exact absurd (congrArg Prod.snd he).symm hρ
          · exact hmem
      · dsimp only
        split
        · rw [List.length_append, List.length_singleton, List.length_cons]
          omega
        · rw [List.length_cons]
          omega
  | cloning closed =>
    rw [hat] at hstep hcase
    have hsent : x.closedMessageSent = true := hcase.resolve_right fun hawaits => hawaits.2
    obtain rfl := Option.some.inj hstep
    refine ⟨⟨hnext, nofun, x, hx, ho, .inl hsent⟩, ?_⟩
    dsimp only [goto]
    omega
  | cleaning clone closed =>
    rw [hat] at hstep hcase
    have hsent : x.closedMessageSent = true := hcase.resolve_right fun hawaits => hawaits.2
    cases closed with
    | nil =>
      obtain rfl := Option.some.inj hstep
      refine ⟨⟨hnext, nofun, x, hx, ho, .inl hsent⟩, ?_⟩
      dsimp only [Terminals.returns]
      omega
    | cons id closed =>
      obtain ⟨ρ, z, hget, hz, hflag, hcloned⟩ := hinv.cleaned hat
      dsimp only at hstep
      rw [hcloned] at hstep
      dsimp only at hstep
      split at hstep
      · rw [hz, Option.map_some, if_pos hflag] at hstep
        obtain rfl := Option.some.inj hstep
        obtain ⟨x', hx', ho', hsent'⟩ := hwhole.takes hz (by unfold Awaits; rw [hat]; exact fun hno => hno)
        refine ⟨⟨hnext, nofun, x', hx', ho', .inl hsent'⟩, ?_⟩
        dsimp only [goto]
        rw [List.length_cons]
        omega
      · obtain rfl := Option.some.inj hstep
        refine ⟨⟨hnext, ?_, x, hx, ho, .inl hsent⟩, ?_⟩
        · intro clone' i ρ' closed' he
          obtain ⟨-, -, rfl, -⟩ := Stage.takingChild.inj he
          exact hinv.bound id ρ hget
        · dsimp only
          rw [List.length_cons]
          omega
  | takingChild clone id ρ closed =>
    rw [hat] at hstep
    obtain ⟨z, hz, rfl⟩ := Option.map_eq_some_iff.mp hstep
    obtain ⟨x', hx', ho', hsent'⟩ := hwhole.takes hz (by unfold Awaits; rw [hat]; exact fun hno => hno)
    refine ⟨⟨hnext, nofun, x', hx', ho', .inl hsent'⟩, ?_⟩
    dsimp only [goto]
    omega
  | unmapping clone id exitCode closed =>
    rw [hat] at hstep hcase
    have hsent : x.closedMessageSent = true := hcase.resolve_right fun hawaits => hawaits.2
    obtain rfl := Option.some.inj hstep
    refine ⟨⟨hnext, nofun, x, hx, ho, .inl hsent⟩, ?_⟩
    dsimp only
    omega

/-- It does not get stuck. -/
theorem Reporting.goes_on (h : s.Reporting waits σ o) (hstage : s.stage ≠ .idle) :
    ∃ t, s.readOutputs { listed := s.sessions } = some t := by
  have hplace : ∀ ρ, ρ < s.arena.length → ∃ z, s.arena[ρ]? = some z := fun ρ hlt =>
    ⟨_, List.getElem?_eq_getElem hlt⟩
  unfold Terminals.readOutputs
  cases hat : s.stage with
  | idle => exact absurd hat hstage
  | starting => exact ⟨_, rfl⟩
  | snapshotting => exact ⟨_, if_pos (List.Perm.refl s.sessions)⟩
  | visiting todo closed =>
    cases todo with
    | nil =>
      dsimp only
      split <;> exact ⟨_, rfl⟩
    | cons q todo =>
      obtain ⟨id, ρ⟩ := q
      have htodo := h.inv.todo
      rw [hat] at htodo
      obtain ⟨z, hz⟩ := hplace ρ (h.inv.bound id ρ (htodo (id, ρ) (List.mem_cons_self ..)))
      dsimp only
      rw [if_neg Bool.false_ne_true, hz]
      exact ⟨_, rfl⟩
  | cloning closed => exact ⟨_, rfl⟩
  | cleaning clone closed =>
    cases closed with
    | nil => exact ⟨_, rfl⟩
    | cons id closed =>
      obtain ⟨ρ, z, -, hz, -, hcloned⟩ := h.inv.cleaned hat
      dsimp only
      rw [hcloned]
      dsimp only
      split
      · rw [hz]
        exact ⟨_, rfl⟩
      · exact ⟨_, rfl⟩
  | takingChild clone id ρ closed =>
    obtain ⟨z, hz⟩ := hplace ρ (h.taking clone id ρ closed hat)
    dsimp only
    rw [hz]
    exact ⟨_, rfl⟩
  | unmapping clone id exitCode closed => exact ⟨_, rfl⟩

/-- A poll that meets no locked session comes to its end. -/
theorem Reporting.ends (h : s.Reporting waits σ o) :
    ∃ (looks : List Look) (t : Terminals), (∀ look ∈ looks, look.Finds waits) ∧
      runs step s (looks.map Event.polls) = some t ∧ t.stage = .idle := by
  generalize hn : s.regions = n
  induction n using Nat.strongRecOn generalizing s with
  | ind n ih =>
    by_cases hidle : s.stage = .idle
    · exact ⟨[], s, nofun, rfl, hidle⟩
    · obtain ⟨t, ht⟩ := h.goes_on hidle
      have hfinds : Look.Finds waits { listed := s.sessions } := ⟨rfl, fun _ => rfl⟩
      obtain ⟨hnext, hless⟩ := h.readOutputs hfinds ht
      obtain ⟨looks, u, hlooks, hruns, hend⟩ := ih t.regions (hn ▸ hless) hnext rfl
      refine ⟨{ listed := s.sessions } :: looks, u, List.forall_mem_cons.mpr ⟨hfinds, hlooks⟩, ?_, hend⟩
      have hfirst : s.step (.polls { listed := s.sessions }) = some t := ht
      rw [List.map_cons, runs, hfirst, Option.bind_some]
      exact hruns

/-- Whatever else it meets, it reports the session until it ends. -/
theorem Reporting.runs (h : s.Reporting waits σ o) {looks : List Look} (hlooks : ∀ look ∈ looks, look.Finds waits)
    (hruns : Lib.runs step s (looks.map Event.polls) = some t) : t.Reporting waits σ o := by
  induction looks generalizing s with
  | nil =>
    obtain rfl := Option.some.inj hruns
    exact h
  | cons look looks ih =>
    obtain ⟨u, hu, hrest⟩ := Option.bind_eq_some_iff.mp hruns
    obtain ⟨hlook, hlooks⟩ := List.forall_mem_cons.mp hlooks
    exact ih (h.readOutputs hlook hu).1 hlooks hrest

/-! ## The client's side -/

/-- The responses since the client opened the session, with what is in the hands of the poll. -/
theorem drop_produced_eq (h : s.Follows σ x o) (hopen : o.till = none) :
    s.produced.drop o.mark = s.window o ++ s.responses := by
  unfold produced window
  rw [hopen, Option.getD_none, List.take_length]
  exact List.drop_append_of_le_length h.mark_le

/-- Of a session whose shell has been found exited, one Closed response has been returned by the end of
the poll, and it is in the map no more. -/
theorem Inv.settled (h : s.Inv) (hx : s.arena[σ]? = some x) (ho : x.opened = some o)
    (hidle : s.stage = .idle) :
    Response.closedFor o.id (s.window o) = x.closedMessageSent.toNat ∧
      (x.closedMessageSent = true → ∀ i, Assoc.get s.sessions i ≠ some σ) := by
  have hfollows := h.follows σ x o hx ho
  refine ⟨?_, fun hsent i hi => ?_⟩
  · cases hopen : o.till with
    | none =>
      have hcount := (hfollows.current hopen).count
      rw [drop_produced_eq hfollows hopen, h.quiet hidle, List.append_nil, hidle] at hcount
      exact hcount
    | some till =>
      obtain ⟨-, hsent, -, hcount⟩ := hfollows.past till hopen
      unfold window
      rw [hopen, hsent]
      exact hcount
  · have hkept := h.heard i σ x hi hx hsent
    rw [hidle] at hkept
    cases hkept

/-- Every poll that meets no locked session reports a shell that has exited before it, and there is one. -/
theorem Inv.exit_reported (h : s.Inv) (hx : s.arena[σ]? = some x) (ho : x.opened = some o)
    (hopen : o.till = none) (hidle : s.stage = .idle) (hattached : s.attached = true)
    (hexited : x.exited waits = true) :
    (∃ (looks : List Look) (t : Terminals), (∀ look ∈ looks, look.Finds waits) ∧
      Lib.runs Terminals.step s (.pollStarts :: looks.map Event.polls) = some t ∧ t.stage = .idle) ∧
    ∀ (looks : List Look) (t : Terminals), (∀ look ∈ looks, look.Finds waits) →
      Lib.runs Terminals.step s (.pollStarts :: looks.map Event.polls) = some t → t.stage = .idle →
        Response.closedFor o.id (t.window o) = 1 ∧ ∀ i, Assoc.get t.sessions i ≠ some σ := by
  have hstart : s.step .pollStarts = some (s.goto .starting) := if_pos ⟨hattached, hidle⟩
  have hstarted : (s.goto .starting).Inv := h.starts hidle
  have hreporting : (s.goto .starting).Reporting waits σ o := by
    refine ⟨hstarted, nofun, x, hx, ho, ?_⟩
    obtain hin | ⟨-, hsent⟩ := ((h.follows σ x o hx ho).current hopen).located
    · exact .inr ⟨hexited, hin⟩
    · exact .inl hsent
  have hpoll : ∀ looks : List Look, Lib.runs Terminals.step s (.pollStarts :: looks.map Event.polls) =
      Lib.runs Terminals.step (s.goto .starting) (looks.map Event.polls) := by
    intro looks
    rw [Lib.runs, hstart, Option.bind_some]
  refine ⟨?_, fun looks t hlooks hruns hend => ?_⟩
  · obtain ⟨looks, t, hlooks, hruns, hend⟩ := hreporting.ends
    exact ⟨looks, t, hlooks, (hpoll looks).trans hruns, hend⟩
  · obtain ⟨hinv, -, x', hx', ho', hcase⟩ := hreporting.runs hlooks ((hpoll looks).symm.trans hruns)
    have hsent : x'.closedMessageSent = true := by
      unfold Awaits at hcase
      rw [hend] at hcase
      exact hcase.resolve_right fun hawaits => hawaits.2
    obtain ⟨hcount, hgone⟩ := hinv.settled hx' ho' hend
    rw [hsent] at hcount
    exact ⟨hcount, hgone hsent⟩

/-- In every run of orderly steps, for every session that the client has opened: what was returned for its
id until the client opened the id again, then what the poll has for it, and what visits have still to send
of what is pending and in the channel, are the end of its output before that and all since; of Closed responses there is one at most,
between two polls exactly one if its shell was found exited, with the session gone; and a shell that has
exited is reported by the next poll, whatever it meets, if it meets no locked session and finds the exit. -/
theorem continuous_after_reopen {history : List (Terminals × Event)} (hx : Exec Init step history s)
    (horderly : ∀ p ∈ history, Orderly p.1 p.2) (hσ : s.arena[σ]? = some x) (ho : x.opened = some o) :
    x.Continues o (Response.bytesFor o.id (s.window o) ++
      if o.till = none then Response.bytesFor o.id s.responses ++ x.toSend else []) ∧
    Response.closedFor o.id (s.window o) ≤ 1 ∧
    (s.stage = .idle → Response.closedFor o.id (s.window o) = x.closedMessageSent.toNat ∧
      (x.closedMessageSent = true → ∀ i, Assoc.get s.sessions i ≠ some σ)) ∧
    (o.till = none → s.stage = .idle → s.attached = true → ∀ waits, x.exited waits = true →
      (∃ (looks : List Look) (t : Terminals), (∀ look ∈ looks, look.Finds waits) ∧
        runs step s (.pollStarts :: looks.map Event.polls) = some t ∧ t.stage = .idle) ∧
      ∀ (looks : List Look) (t : Terminals), (∀ look ∈ looks, look.Finds waits) →
        runs step s (.pollStarts :: looks.map Event.polls) = some t → t.stage = .idle →
          Response.closedFor o.id (t.window o) = 1 ∧ ∀ i, Assoc.get t.sessions i ≠ some σ) := by
  obtain ⟨hinv, -⟩ := inv_of_exec hx horderly
  have hfollows := hinv.follows σ x o hσ ho
  refine ⟨?_, ?_, hinv.settled hσ ho, fun hopen hidle hattached waits =>
    hinv.exit_reported hσ ho hopen hidle hattached⟩
  · cases hopen : o.till with
    | none =>
      have hstream := (hfollows.current hopen).stream
      rw [drop_produced_eq hfollows hopen, Response.bytesFor_append, List.append_assoc] at hstream
      rw [if_pos rfl]
      exact hstream
    | some till =>
      rw [if_neg nofun, List.append_nil]
      unfold window
      rw [hopen]
      exact (hfollows.past till hopen).stream
  · cases hopen : o.till with
    | none =>
      have hcount := (hfollows.current hopen).count
      rw [drop_produced_eq hfollows hopen, Response.closedFor_append] at hcount
      have hflag : x.closedMessageSent.toNat ≤ 1 := Bool.toNat_le _
      omega
    | some till =>
      unfold window
      rw [hopen]
      exact (hfollows.past till hopen).count.le

/-! ## Two runs -/

/-- The start of a service. -/
def started : Terminals := ⟨[], [], true, true, false, .idle, false, [], []⟩

theorem exec_started : Exec Init step [] started :=
  .start rfl

/-- A terminal 2 prints "a" and its connection ends. -/
def leftEvents : List Event :=
  [.attaches true, .opens 2 true, .output 0 [97], .disconnects, .attaches true]

/-- It is reopened as 1 before a poll, and prints "b". -/
def reopenedEvents : List Event :=
  leftEvents ++ [.opens 1 true, .output 0 [98], .pollStarts, .polls {}, .polls { listed := [(1, 0)] },
    .polls {}, .polls {}]

theorem reopened_runs : (trace step started reopenedEvents).isSome = true := by decide +kernel

/-- It prints "c" and exits, and is reopened once more when a poll has found the exit. -/
def exitedEvents : List Event :=
  reopenedEvents ++ [.output 0 [99], .readerEnds 0, .pollStarts, .polls {}, .polls { listed := [(1, 0)] },
    .polls {}, .opens 1 true, .polls {}, .polls {}, .polls {}, .polls {}, .polls {}]

theorem exited_runs : (trace step started exitedEvents).isSome = true := by decide +kernel

/-- The first two letters are sent as the output of 1; to the client that opens 1 again, the last, and the
Closed response. -/
theorem continuous_after_reopen_remapped :
    (∃ s x o, Reachable Init step s ∧ s.arena[0]? = some x ∧ x.opened = some o ∧ o.id = 1 ∧
      Response.bytesFor 1 (s.window o) = [97, 98] ∧ x.Continues o [97, 98]) ∧
    ∃ s x o, Reachable Init step s ∧ s.arena[0]? = some x ∧ x.opened = some o ∧ o.id = 1 ∧ s.stage = .idle ∧
      x.Continues o [99] ∧ Response.closedFor 1 (s.window o) = 1 := by
  constructor
  · let ended := (trace step started reopenedEvents).get reopened_runs
    have hx := exec_started.trace (Option.some_get reopened_runs).symm
    rw [List.append_nil] at hx
    have horderly : ∀ p ∈ ended.1, Orderly p.1 p.2 := by decide +kernel
    have hsession : (ended.2.arena[0]?.any fun x => x.opened == some ⟨1, 1, 0, none⟩ && x.toSend == []) = true := by
      decide +kernel
    have hsent : Response.bytesFor 1 (ended.2.window ⟨1, 1, 0, none⟩) = [97, 98] := by decide +kernel
    have hinHand : ended.2.responses = [] := by decide +kernel
    obtain ⟨x, hσ, hx'⟩ := (Option.any_eq_true _ _).mp hsession
    obtain ⟨ho, htoSend⟩ := Bool.and_eq_true_iff.mp hx'
    have ho : x.opened = some ⟨1, 1, 0, none⟩ := beq_iff_eq.mp ho
    obtain ⟨hstream, -⟩ := continuous_after_reopen hx horderly hσ ho
    rw [if_pos rfl, hsent, hinHand, beq_iff_eq.mp htoSend] at hstream
    exact ⟨ended.2, x, _, ⟨_, hx⟩, hσ, ho, rfl, hsent, hstream⟩
  · let ended := (trace step started exitedEvents).get exited_runs
    have hx := exec_started.trace (Option.some_get exited_runs).symm
    rw [List.append_nil] at hx
    have horderly : ∀ p ∈ ended.1, Orderly p.1 p.2 := by decide +kernel
    have hsession : (ended.2.arena[0]?.any fun x => x.opened == some ⟨1, 3, 2, none⟩ &&
        x.closedMessageSent) = true := by decide +kernel
    have hsent : Response.bytesFor 1 (ended.2.window ⟨1, 3, 2, none⟩) = [99] := by decide +kernel
    have hinHand : ended.2.responses = [] := by decide +kernel
    have hidle : ended.2.stage = .idle := by decide +kernel
    obtain ⟨x, hσ, hx'⟩ := (Option.any_eq_true _ _).mp hsession
    obtain ⟨ho, hflag⟩ := Bool.and_eq_true_iff.mp hx'
    have ho : x.opened = some ⟨1, 3, 2, none⟩ := beq_iff_eq.mp ho
    obtain ⟨hstream, -, hclosed, -⟩ := continuous_after_reopen hx horderly hσ ho
    rw [if_pos rfl, hsent, hinHand, x.toSend_of_sent hflag] at hstream
    obtain ⟨hcount, -⟩ := hclosed hidle
    rw [hflag] at hcount
    exact ⟨ended.2, x, _, ⟨_, hx⟩, hσ, ho, rfl, hidle, hstream, hcount⟩

/-- It is reopened as 1 between the snapshot of a poll and the visit, and prints "b". -/
def mislabelledEvents : List Event :=
  leftEvents ++ [.pollStarts, .polls {}, .polls { listed := [(2, 0)] }, .opens 1 true, .output 0 [98],
    .polls {}, .polls {}]

theorem mislabelled_runs : (trace step started mislabelledEvents).isSome = true := by decide +kernel

/-- Nothing is sent as the output of 1, and nothing will be: both letters have been sent as the output
of 2. -/
theorem output_mislabelled :
    ∃ s x o, Reachable Init step s ∧ s.arena[0]? = some x ∧ x.opened = some o ∧ o.id = 1 ∧ o.till = none ∧
      s.stage = .idle ∧ x.pending = [] ∧ x.outputRx = [] ∧ Response.bytesFor 2 (s.window o) = [97, 98] ∧
      ¬ x.Continues o (Response.bytesFor 1 (s.window o)) := by
  let ended := (trace step started mislabelledEvents).get mislabelled_runs
  have hx := exec_started.trace (Option.some_get mislabelled_runs).symm
  have hsession : (ended.2.arena[0]?.any fun x => x.opened == some ⟨1, 1, 0, none⟩ && x.pending == [] &&
      x.outputRx == [] && x.written == [97, 98]) = true := by decide +kernel
  have hsent : Response.bytesFor 2 (ended.2.window ⟨1, 1, 0, none⟩) = [97, 98] := by decide +kernel
  have hnone : Response.bytesFor 1 (ended.2.window ⟨1, 1, 0, none⟩) = [] := by decide +kernel
  obtain ⟨x, hσ, hx'⟩ := (Option.any_eq_true _ _).mp hsession
  obtain ⟨hx', hwritten⟩ := Bool.and_eq_true_iff.mp hx'
  obtain ⟨hx', hrx⟩ := Bool.and_eq_true_iff.mp hx'
  obtain ⟨ho, hpending⟩ := Bool.and_eq_true_iff.mp hx'
  have ho : x.opened = some ⟨1, 1, 0, none⟩ := beq_iff_eq.mp ho
  refine ⟨ended.2, x, _, ⟨_, hx⟩, hσ, ho, rfl, rfl, by decide +kernel, beq_iff_eq.mp hpending,
    beq_iff_eq.mp hrx, hsent, ?_⟩
  rintro ⟨history, -, hall⟩
  rw [hnone, beq_iff_eq.mp hwritten] at hall
  obtain ⟨-, hall⟩ := List.append_eq_nil_iff.mp hall.symm
  cases hall

end Terminals

end FontisRemote.Terminal
