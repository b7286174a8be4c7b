import FontisRemote.Lib.Slots
import FontisRemote.Terminal.Service

/-!
# A terminal's output goes on after a reconnect

Whatever a poll still has to visit is in the map as it was copied, and whatever it has found exited is
too until the poll takes it out (`Inv`). So the data of an id comes from the session that the client has
under it, and what has been sent, what is in the hands of the poll, and the pending history and the channel
until the shell is found exited, together are always the end of what the session had output before the
client opened it, and all since (`Follows`).
-/

namespace FontisRemote.Terminal

open FontisRemote.Lib

namespace TerminalSession

variable {x : TerminalSession}

/-- The buffer holds the end of what was taken from the channel. -/
def Drained (x : TerminalSession) : Prop :=
  ∃ taken, x.written = taken ++ x.outputRx.flatten ∧ x.outputBuffer.text <:+ taken

/-- What visits have still to send: nothing once one has found the shell exited. -/
def toSend (x : TerminalSession) : Bytes :=
  if x.closedMessageSent then [] else x.pending ++ x.outputRx.flatten

/-- What was sent to the client is the end of the output before it opened the session, and all since. -/
def Continues (x : TerminalSession) (o : Opened) (sent : Bytes) : Prop :=
  ∃ history, history <:+ x.written.take o.before ∧ sent = history ++ x.written.drop o.before

theorem toSend_of_sent (h : x.closedMessageSent = true) : x.toSend = [] := if_pos h

theorem toSend_of_unsent (h : x.closedMessageSent = false) : x.toSend = x.pending ++ x.outputRx.flatten := by
  unfold toSend
  rw [h, if_neg Bool.false_ne_true]

section Visit

theorem Drained.visited (h : x.Drained) (look : Look) : (x.visited look).Drained := by
  obtain ⟨taken, hwritten, hbuffer⟩ := h
  obtain ⟨front, hfront⟩ := hbuffer
  refine ⟨x.written, (List.append_nil _).symm, ?_⟩
  refine (x.outputBuffer.appendAll_suffix x.outputRx).trans ⟨front, ?_⟩
  rw [← List.append_assoc, hfront, hwritten]

theorem visited_pending (look : Look) : (x.visited look).pending = [] := by
  obtain ⟨_, _, state, _⟩ := x
  cases state <;> rfl

/-- A visit leaves nothing to be sent. -/
theorem visited_toSend (look : Look) : (x.visited look).toSend = [] := by
  unfold toSend
  rw [visited_pending]
  exact ite_self _

theorem visited_streaming (look : Look) : (x.visited look).streaming = x.streaming := by
  obtain ⟨_, _, state, _⟩ := x
  cases state <;> rfl

theorem emits_terminalId {id : Int} {r : Response} (h : r ∈ x.emits id) : r.terminalId = id := by
  unfold emits at h
  split at h
  · cases h
  · rcases List.mem_append.1 h with h | h <;> obtain ⟨_, _, rfl⟩ := List.mem_map.1 h <;> rfl

/-- A visit sends what is pending and what is in the channel. -/
theorem bytesFor_emits (id : Int) (h : x.streaming = true) :
    Response.bytesFor id (x.emits id) = x.pending ++ x.outputRx.flatten := by
  unfold streaming at h
  unfold emits pending
  split at h
  · cases h
  · rename_i pendingBuffer _ hstate
    simp only [hstate, Response.bytesFor_append, Response.bytesFor_chunks]
    cases pendingBuffer with
    | none => rfl
    | some buffer => cases buffer <;> simp

theorem closedFor_emits (id terminalId : Int) : Response.closedFor id (x.emits terminalId) = 0 := by
  refine List.countP_eq_zero.2 fun r hr => ?_
  unfold emits at hr
  split at hr
  · cases hr
  · rcases List.mem_append.1 hr with hr | hr <;> obtain ⟨_, _, rfl⟩ := List.mem_map.1 hr <;>
      exact Bool.false_ne_true

end Visit

section Reconnect

variable (o : Opened)

theorem Drained.backlog (h : x.Drained) :
    ∃ taken, x.written = taken ++ (x.outputRx.drop channelBufferSize).flatten ∧
      (x.outputBuffer.appendAll (x.outputRx.take channelBufferSize)).text <:+ taken := by
  obtain ⟨taken, hwritten, hbuffer⟩ := h
  obtain ⟨front, hfront⟩ := hbuffer
  refine ⟨taken ++ (x.outputRx.take channelBufferSize).flatten, ?_, ?_⟩
  · rw [List.append_assoc, ← List.flatten_append, List.take_append_drop, hwritten]
  · refine (x.outputBuffer.appendAll_suffix _).trans ⟨front, ?_⟩
    rw [← List.append_assoc, hfront]

theorem Drained.reconnect (h : x.Drained) : (x.reconnect o).Drained := h.backlog

theorem reconnect_pending : (x.reconnect o).pending =
    (x.outputBuffer.appendAll (x.outputRx.take channelBufferSize)).getRecent
      defaultReconnectBufferBytes := by
  unfold TerminalSession.reconnect pending
  dsimp only
  split
  · rename_i hstate
    split at hstate
    · cases hstate
    · simp only [SessionState.active.injEq, Option.some.injEq] at hstate
      exact hstate.1.symm
  · rename_i hstate
    split at hstate
    · rename_i hempty
      exact (List.isEmpty_iff.1 hempty).symm
    · exact absurd rfl (hstate _ _)

/-- What a reconnect has for the client is the end of the output of the session. -/
theorem Drained.replay (h : x.Drained) :
    (x.reconnect o).pending ++ (x.reconnect o).outputRx.flatten <:+ x.written := by
  obtain ⟨taken, hwritten, hbuffer⟩ := h.backlog
  rw [reconnect_pending]
  obtain ⟨front, hfront⟩ := (OutputBuffer.getRecent_suffix _ defaultReconnectBufferBytes).trans hbuffer
  refine ⟨front, ?_⟩
  rw [← List.append_assoc, hfront]
  exact hwritten.symm

end Reconnect

section Output

variable {o : Opened} {sent : Bytes}

/-- What the shell puts out is to be sent behind what there is. -/
theorem Continues.output (h : x.Continues o sent) (hbefore : o.before ≤ x.written.length) (data : Bytes) :
    { x with outputRx := x.outputRx ++ [data], written := x.written ++ data }.Continues o (sent ++ data) := by
  obtain ⟨history, hhistory, rfl⟩ := h
  refine ⟨history, ?_, ?_⟩
  · rwa [List.take_append_of_le_length hbefore]
  · rw [List.drop_append_of_le_length hbefore, List.append_assoc]

end Output

end TerminalSession

/-! ## What a poll has in its hands -/

namespace Stage

/-- The sessions that it has still to visit. -/
def todo : Stage → List (Int × Nat)
  | .visiting todo _ => todo
  | _ => []

/-- The ids that it has found closed and not reported. -/
def held : Stage → List Int
  | .visiting _ closed | .cloning closed | .cleaning _ closed => closed
  | .takingChild _ terminalId _ closed | .unmapping _ terminalId _ closed => terminalId :: closed
  | _ => []

/-- Of these, the ones it has not taken out of the map. -/
def kept : Stage → List Int
  | .takingChild _ _ _ closed => closed
  | stage => stage.held

/-- Its copy of the map, and the ids it will look up there. -/
def clone : Stage → List (Int × Nat) × List Int
  | .cleaning clone closed | .takingChild clone _ _ closed => (clone, closed)
  | .unmapping clone terminalId _ closed => (Assoc.erase clone terminalId, closed)
  | _ => ([], [])

theorem kept_subset {stage : Stage} {id : Int} (h : id ∈ stage.kept) : id ∈ stage.held := by
  cases stage with
  | takingChild _ _ _ closed => exact List.mem_cons_of_mem _ h
  | _ => exact h

end Stage

namespace Terminals

variable (s : Terminals)

/-- All responses so far, with those in the hands of the poll. -/
def produced : List Response := s.returned ++ s.responses

/-- The responses from when the client opened a session until it opened the id again. -/
def window (o : Opened) : List Response :=
  (s.returned.take (o.till.getD s.returned.length)).drop o.mark

/-- The client has the session under its id: it is in the map, until its shell has exited. -/
def Located (σ : Nat) (x : TerminalSession) (o : Opened) : Prop :=
  Assoc.get s.sessions o.id = some σ ∨
    Assoc.get s.sessions o.id = none ∧ x.closedMessageSent = true

structure Current (σ : Nat) (x : TerminalSession) (o : Opened) : Prop where
  located : s.Located σ x o
  stream : x.Continues o
    (Response.bytesFor o.id (s.produced.drop o.mark) ++ x.toSend)
  count : Response.closedFor o.id (s.produced.drop o.mark) + s.stage.held.count o.id =
    x.closedMessageSent.toNat

/-- The client has opened the id again, and the session is gone. -/
structure Past (x : TerminalSession) (o : Opened) (till : Nat) : Prop where
  till_le : till ≤ s.returned.length
  closed : x.closedMessageSent = true
  stream : x.Continues o (Response.bytesFor o.id ((s.returned.take till).drop o.mark))
  count : Response.closedFor o.id ((s.returned.take till).drop o.mark) = 1

structure Follows (σ : Nat) (x : TerminalSession) (o : Opened) : Prop where
  streaming : x.streaming = true
  mark_le : o.mark ≤ s.returned.length
  before_le : o.before ≤ x.written.length
  current : o.till = none → s.Current σ x o
  past : ∀ (till : Nat), o.till = some till → s.Past x o till

structure Inv : Prop where
  keys : (s.sessions.map Prod.fst).Nodup
  inj : ∀ (i j : Int) (σ : Nat),
    Assoc.get s.sessions i = some σ → Assoc.get s.sessions j = some σ → i = j
  bound : ∀ (i : Int) (σ : Nat), Assoc.get s.sessions i = some σ → σ < s.arena.length
  synced : s.needsSessionSync = true → ∀ x ∈ s.arena, x.opened = none
  drained : ∀ x ∈ s.arena, x.Drained
  todo : ∀ q ∈ s.stage.todo, Assoc.get s.sessions q.1 = some q.2
  fresh : (s.stage.todo.map Prod.fst ++ s.stage.held).Nodup
  kept : ∀ id ∈ s.stage.kept, ∃ σ x, Assoc.get s.sessions id = some σ ∧ s.arena[σ]? = some x ∧
    x.closedMessageSent = true
  clone : ∀ id ∈ s.stage.clone.2, Assoc.get s.stage.clone.1 id = Assoc.get s.sessions id
  heard : ∀ (id : Int) (σ : Nat) (x : TerminalSession), Assoc.get s.sessions id = some σ →
    s.arena[σ]? = some x → x.closedMessageSent = true → id ∈ s.stage.kept
  quiet : s.stage = .idle → s.responses = []
  follows : ∀ (σ : Nat) (x : TerminalSession) (o : Opened), s.arena[σ]? = some x →
    x.opened = some o → s.Follows σ x o

variable {s} {t : Terminals} {σ : Nat} {x : TerminalSession} {o : Opened}

/-- A step that returns no less, and under the id of the session neither sends nor closes. -/
theorem Follows.mono (h : s.Follows σ x o) (hreturned : s.returned <+: t.returned)
    (hbytes : o.till = none → Response.bytesFor o.id (t.produced.drop o.mark) =
      Response.bytesFor o.id (s.produced.drop o.mark))
    (hcount : o.till = none →
      Response.closedFor o.id (t.produced.drop o.mark) + t.stage.held.count o.id =
        Response.closedFor o.id (s.produced.drop o.mark) + s.stage.held.count o.id)
    (hlocated : o.till = none → s.Located σ x o → t.Located σ x o) : t.Follows σ x o where
  streaming := h.streaming
  mark_le := h.mark_le.trans hreturned.length_le
  before_le := h.before_le
  current hopen := by
    obtain ⟨hloc, hstream, hclosed⟩ := h.current hopen
    refine ⟨hlocated hopen hloc, ?_, ?_⟩
    · rwa [hbytes hopen]
    · rwa [hcount hopen]
  past till htill := by
    obtain ⟨hle, hflag, hstream, hclosed⟩ := h.past till htill
    obtain ⟨more, hmore⟩ := hreturned
    have htake : t.returned.take till = s.returned.take till := by
      rw [← hmore, List.take_append_of_le_length hle]
    refine ⟨hle.trans ?_, hflag, ?_, ?_⟩
    · rw [← hmore, List.length_append]
      exact Nat.le_add_right _ _
    · rwa [htake]
    · rwa [htake]

end Terminals

end FontisRemote.Terminal
