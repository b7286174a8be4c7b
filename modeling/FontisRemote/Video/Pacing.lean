import Mathlib.Data.Finset.Card
import FontisRemote.Lib.Assoc
import FontisRemote.Lib.Run
import FontisRemote.Video.Source

/-!
# Waiting for the viewers of a frame

The video loop of a display or a camera sends a frame and waits, three seconds at most, until as many
connections have signalled as it was sent to (`try_wait_next` in `video_service.rs`). A signal is the id
of a connection in a channel that is kept by index alone: a monitor and a camera of one index share it,
and what is not taken out in time stays for the next frame.

A step is a region of code under one lock, or one call of `try_wait_next`. What a signal is for and who
has signalled since a frame went out is recorded besides; the code keeps neither.
-/

namespace FontisRemote.Video

open FontisRemote.Lib

/-- A video service. -/
structure Service where
  source : VideoSource
  idx : Nat
deriving DecidableEq, Repr

/-- What is in a channel of `FRAME_FETCHED_NOTIFIERS`. -/
structure Signal where
  connId : Int
  /-- The service whose frame was fetched; none where only the connection is known. -/
  service : Option Service
deriving DecidableEq, Repr

/-- Where a video loop is, with `send_conn_ids` and `fetched_conn_ids`. -/
inductive Phase
  | idle
  /-- `send_video_frame` has returned, `set_send` is still to come. -/
  | sent (connIds : Finset Int)
  | ready (connIds : Finset Int)
  | waiting (connIds fetched : Finset Int)
  /-- The wait is over, `DISPLAY_CONN_IDS` still has the frame. -/
  | leaving
deriving DecidableEq

/-- The connections a loop has sent its frame to, until the wait is over. -/
def Phase.awaited : Phase → Finset Int
  | .sent connIds => connIds
  | .ready connIds => connIds
  | .waiting connIds _ => connIds
  | .idle => ∅
  | .leaving => ∅

structure Loop where
  phase : Phase := .idle
  /-- Who has signalled in its channel since the frame went out. -/
  since : Finset Int := ∅
deriving DecidableEq

/-- What has happened that the video loops make something of. -/
inductive Entry
  /-- A service has taken a signal out of its channel. -/
  | consumed (service : Service) (signal : Signal)
  /-- A wait has ended before the limit. -/
  | ended (service : Service) (connIds since : Finset Int)
deriving DecidableEq

/-- A service takes no signal for another service's frame, and a wait ends before the limit only when
everybody has signalled since. -/
def Entry.Good : Entry → Prop
  | .consumed v signal => signal.service = none ∨ signal.service = some v
  | .ended _ connIds since => connIds ⊆ since

instance (entry : Entry) : Decidable entry.Good :=
  match entry with
  | .consumed v signal => inferInstanceAs (Decidable (signal.service = none ∨ signal.service = some v))
  | .ended _ connIds since => inferInstanceAs (Decidable (connIds ⊆ since))

structure Pacing where
  /-- `FRAME_FETCHED_NOTIFIERS`. -/
  notifiers : Nat → Option (List Signal) := fun _ => none
  /-- `DISPLAY_CONN_IDS`. -/
  displayConnIds : List (Nat × Finset Int) := []
  loops : Service → Loop := fun _ => {}
  /-- Calls of `notify_video_frame_fetched_by_conn_id` between their two locks. -/
  pending : List (Int × List Nat) := []
  log : List Entry := []

namespace Pacing

inductive Event
  | new (v : Service)
  /-- `send_video_frame` of the service, with the connections it returns. -/
  | frame (v : Service) (connIds : Finset Int)
  | noFrame (v : Service)
  | setSend (v : Service)
  | beginWait (v : Service)
  | tryWaitNext (v : Service)
  /-- The three seconds are over. -/
  | limit (v : Service)
  | leave (v : Service)
  /-- `run` returns, with an error or not, and its `Raii` is dropped. -/
  | stop (v : Service)
  /-- `notify_video_frame_fetched` for a frame of the service. -/
  | fetched (v : Service) (connId : Int)
  /-- The first lock of `notify_video_frame_fetched_by_conn_id`. -/
  | lookUp (connId : Int)
  /-- The second, of one of the calls. -/
  | deliver (k : Nat)

variable (s : Pacing)

def setPhase (v : Service) (phase : Phase) : Pacing :=
  { s with loops := Function.update s.loops v { s.loops v with phase := phase } }

/-- A signal is sent to a channel, if there is one. -/
def notify (idx : Nat) (signal : Signal) : Pacing :=
  match s.notifiers idx with
  | none => s
  | some signals =>
    { s with
      notifiers := Function.update s.notifiers idx (some (signals ++ [signal]))
      loops := fun v =>
        if v.idx = idx then { s.loops v with since := insert signal.connId (s.loops v).since }
        else s.loops v }

/-- The signals that `notify_video_frame_fetched_by_conn_id` sends. -/
def notifyAll (connId : Int) (indices : List Nat) : Pacing :=
  indices.foldl (fun s idx => s.notify idx ⟨connId, none⟩) s

/-- `try_wait_next` and the comparison after it. -/
def tryWaitNext (v : Service) (connIds fetched : Finset Int) : Pacing :=
  let signals := if connIds = ∅ then [] else (s.notifiers v.idx).getD []
  let fetched := fetched ∪ (signals.map Signal.connId).toFinset
  let s' : Pacing :=
    { s with
      notifiers :=
        if connIds = ∅ then s.notifiers
        else Function.update s.notifiers v.idx ((s.notifiers v.idx).map fun _ => [])
      log := s.log ++ signals.map (.consumed v) }
  -- break if all connections have received current frame
  if fetched.card ≥ connIds.card then
    { s'.setPhase v .leaving with log := s'.log ++ [.ended v connIds (s.loops v).since] }
  else s'.setPhase v (.waiting connIds fetched)

def step : Event → Option Pacing
  | .new v =>
    some { s with notifiers := Function.update s.notifiers v.idx (some ((s.notifiers v.idx).getD [])) }
  | .frame v connIds =>
    match (s.loops v).phase with
    | .idle => some { s with loops := Function.update s.loops v ⟨.sent connIds, ∅⟩ }
    | _ => none
  | .noFrame v =>
    match (s.loops v).phase with
    | .idle => some (s.setPhase v (.ready ∅))
    | _ => none
  | .setSend v =>
    match (s.loops v).phase with
    | .sent connIds =>
      let s' := s.setPhase v (.ready connIds)
      some { s' with
        displayConnIds :=
          if connIds = ∅ then s.displayConnIds else Assoc.put s.displayConnIds v.idx (some connIds) }
    | _ => none
  | .beginWait v =>
    match (s.loops v).phase with
    | .ready connIds => some (s.setPhase v (.waiting connIds ∅))
    | _ => none
  | .tryWaitNext v =>
    match (s.loops v).phase with
    | .waiting connIds fetched => some (s.tryWaitNext v connIds fetched)
    | _ => none
  | .limit v =>
    match (s.loops v).phase with
    | .waiting _ _ => some (s.setPhase v .leaving)
    | _ => none
  | .leave v =>
    match (s.loops v).phase with
    | .leaving =>
      some { s.setPhase v .idle with displayConnIds := Assoc.erase s.displayConnIds v.idx }
    | _ => none
  | .stop v => some { s.setPhase v .idle with displayConnIds := Assoc.erase s.displayConnIds v.idx }
  | .fetched v connId => some (s.notify v.idx ⟨connId, some v⟩)
  | .lookUp connId =>
    let indices := (s.displayConnIds.filter fun p => decide (connId ∈ p.2)).map Prod.fst
    some { s with pending := s.pending ++ [(connId, indices)] }
  | .deliver k =>
    match s.pending[k]? with
    | none => none
    | some (connId, indices) =>
      some { s.notifyAll connId indices with pending := s.pending.eraseIdx k }

/-- Every entry of the log is as it should be. -/
def Good : Prop :=
  ∀ entry ∈ s.log, entry.Good

/-- Before a frame goes out to somebody, nothing is left in its channel and nobody else waits there. While
somebody waits, signals come for its own frames and from those the frame was sent to. -/
def Meets : Event → Prop
  | .frame v connIds => connIds ≠ ∅ →
    (∀ signals, s.notifiers v.idx = some signals → signals = []) ∧
      ∀ u, u.idx = v.idx → (s.loops u).phase.awaited = ∅
  | .fetched v connId => ∀ u, u.idx = v.idx → (s.loops u).phase.awaited ≠ ∅ →
    u = v ∧ connId ∈ (s.loops u).phase.awaited
  | .deliver k => ∀ p ∈ s.pending[k]?, ∀ u, u.idx ∈ p.2 → (s.loops u).phase.awaited ≠ ∅ →
    p.1 ∈ (s.loops u).phase.awaited
  | _ => True

/-! ## What holds as long as the conditions are met -/

/-- Whoever waits is alone on its index, and what is in its channel or was taken out of it is fresh. -/
structure Fresh : Prop where
  good : s.Good
  alone : ∀ u v, u.idx = v.idx → (s.loops u).phase.awaited ≠ ∅ → (s.loops v).phase.awaited ≠ ∅ → u = v
  signals : ∀ v signals, s.notifiers v.idx = some signals → (s.loops v).phase.awaited ≠ ∅ →
    ∀ signal ∈ signals, signal.connId ∈ (s.loops v).phase.awaited ∧
      signal.connId ∈ (s.loops v).since ∧ (signal.service = none ∨ signal.service = some v)
  fetched : ∀ v connIds fetched, (s.loops v).phase = .waiting connIds fetched →
    fetched ⊆ connIds ∧ fetched ⊆ (s.loops v).since

variable {s} {v : Service}

/-- Nobody reads these two. -/
theorem Fresh.bookkeeping (h : s.Fresh) (displayConnIds : List (Nat × Finset Int))
    (pending : List (Int × List Nat)) :
    Fresh { s with displayConnIds := displayConnIds, pending := pending } :=
  ⟨h.good, h.alone, h.signals, h.fetched⟩

theorem loops_setPhase (u : Service) (phase : Phase) :
    (s.setPhase v phase).loops u =
      if u = v then { s.loops v with phase := phase } else s.loops u := by
  simp only [setPhase, Function.update_apply]

/-- A loop goes on, with the frame it has or without it. -/
theorem Fresh.setPhase (h : s.Fresh) (phase : Phase)
    (hawaited : phase.awaited ≠ ∅ → phase.awaited = (s.loops v).phase.awaited)
    (hfetched : ∀ connIds fetched, phase = .waiting connIds fetched →
      fetched ⊆ connIds ∧ fetched ⊆ (s.loops v).since) : (s.setPhase v phase).Fresh := by
  have hkeep : ∀ u, ((s.setPhase v phase).loops u).phase.awaited ≠ ∅ →
      ((s.setPhase v phase).loops u).phase.awaited = (s.loops u).phase.awaited := by
    intro u hu
    rw [loops_setPhase] at hu ⊢
    split
    · rename_i huv
      subst huv
      rw [if_pos rfl] at hu
      exact hawaited hu
    · rfl
  have hsince : ∀ u, ((s.setPhase v phase).loops u).since = (s.loops u).since := by
    intro u
    rw [loops_setPhase]
    split
    · rename_i huv
      rw [huv]
    · rfl
  constructor
  · exact h.good
  · intro u w hidx hu hw
    exact h.alone u w hidx (hkeep u hu ▸ hu) (hkeep w hw ▸ hw)
  · intro u signals hsignals hu signal hmem
    have hsame := hkeep u hu
    rw [hsame] at hu ⊢
    rw [hsince]
    exact h.signals u signals hsignals hu signal hmem
  · intro u connIds fetched hphase
    rw [hsince]
    rw [loops_setPhase] at hphase
    split at hphase
    · rename_i huv
      subst huv
      exact hfetched connIds fetched hphase
    · exact h.fetched u connIds fetched hphase

/-- A frame goes out. -/
theorem Fresh.frame (h : s.Fresh) {connIds : Finset Int} (hmeets : s.Meets (.frame v connIds)) :
    Fresh { s with loops := Function.update s.loops v ⟨.sent connIds, ∅⟩ } := by
  have hother : ∀ u, u ≠ v → Function.update s.loops v ⟨.sent connIds, ∅⟩ u = s.loops u :=
    fun u hu => Function.update_of_ne hu _ _
  have hself : Function.update s.loops v ⟨.sent connIds, ∅⟩ v = ⟨.sent connIds, ∅⟩ :=
    Function.update_self _ _ _
  constructor
  · exact h.good
  · intro u w hidx hu hw
    by_cases huv : u = v
    · by_cases hwv : w = v
      · rw [huv, hwv]
      · subst huv
        simp only [hself, hother w hwv] at hu hw
        exact absurd ((hmeets hu).2 w hidx.symm) hw
    · by_cases hwv : w = v
      · subst hwv
        simp only [hself, hother u huv] at hu hw
        exact absurd ((hmeets hw).2 u hidx) hu
      · simp only [hother u huv, hother w hwv] at hu hw
        exact h.alone u w hidx hu hw
  · intro u signals hsignals hu signal hmem
    by_cases huv : u = v
    · subst huv
      simp only [hself] at hu
      rw [(hmeets hu).1 signals hsignals] at hmem
      cases hmem
    · simp only [hother u huv] at hu ⊢
      exact h.signals u signals hsignals hu signal hmem
  · intro u ids fetched hphase
    by_cases huv : u = v
    · subst huv
      simp only [hself] at hphase
      cases hphase
    · simp only [hother u huv] at hphase ⊢
      exact h.fetched u ids fetched hphase

theorem phase_notify (idx : Nat) (signal : Signal) (u : Service) :
    ((s.notify idx signal).loops u).phase = (s.loops u).phase := by
  unfold notify
  split
  · rfl
  · dsimp only
    split <;> rfl

/-- A signal from somebody who is waited for, or where nobody waits. -/
theorem Fresh.notify (h : s.Fresh) {idx : Nat} {signal : Signal}
    (hfrom : ∀ u, u.idx = idx → (s.loops u).phase.awaited ≠ ∅ →
      signal.connId ∈ (s.loops u).phase.awaited ∧ (signal.service = none ∨ signal.service = some u)) :
    (s.notify idx signal).Fresh := by
  have hphase := phase_notify (s := s) idx signal
  have hsince : ∀ u, (s.loops u).since ⊆ ((s.notify idx signal).loops u).since := by
    intro u
    unfold Pacing.notify
    split
    · exact Finset.Subset.refl _
    · dsimp only
      split
      · exact Finset.subset_insert _ _
      · exact Finset.Subset.refl _
  constructor
  · have hlog : (s.notify idx signal).log = s.log := by
      unfold Pacing.notify
      split <;> rfl
    rw [Good, hlog]
    exact h.good
  · intro u w hidx hu hw
    rw [hphase] at hu hw
    exact h.alone u w hidx hu hw
  · intro u signals hsignals hu other hmem
    rw [hphase] at hu ⊢
    by_cases hidx : u.idx = idx
    · cases hold : s.notifiers idx with
      | none =>
        simp only [Pacing.notify, hold] at hsignals
        rw [hidx, hold] at hsignals
        cases hsignals
      | some old =>
        simp only [Pacing.notify, hold, hidx, Function.update_self, Option.some.injEq] at hsignals
        subst hsignals
        obtain hmem | hmem := List.mem_append.mp hmem
        · obtain ⟨hin, hrecent, hown⟩ := h.signals u old (hidx ▸ hold) hu other hmem
          exact ⟨hin, hsince u hrecent, hown⟩
        · rw [List.mem_singleton.mp hmem]
          obtain ⟨hin, hown⟩ := hfrom u hidx hu
          refine ⟨hin, ?_, hown⟩
          simp only [Pacing.notify, hold, hidx, if_true]
          exact Finset.mem_insert_self _ _
    · have hsame : s.notifiers u.idx = some signals := by
        unfold Pacing.notify at hsignals
        split at hsignals
        · exact hsignals
        · dsimp only at hsignals
          rwa [Function.update_of_ne hidx] at hsignals
      obtain ⟨hin, hrecent, hown⟩ := h.signals u signals hsame hu other hmem
      exact ⟨hin, hsince u hrecent, hown⟩
  · intro u connIds fetched hwaiting
    rw [hphase] at hwaiting
    obtain ⟨hin, hrecent⟩ := h.fetched u connIds fetched hwaiting
    exact ⟨hin, hrecent.trans (hsince u)⟩

theorem Fresh.notifyAll (h : s.Fresh) {connId : Int} {indices : List Nat}
    (hfrom : ∀ u, u.idx ∈ indices → (s.loops u).phase.awaited ≠ ∅ →
      connId ∈ (s.loops u).phase.awaited) : (s.notifyAll connId indices).Fresh := by
  induction indices generalizing s with
  | nil => exact h
  | cons idx indices ih =>
    have hfirst : (s.notify idx ⟨connId, none⟩).Fresh := by
      refine h.notify fun u hidx hu => ⟨?_, .inl rfl⟩
      exact hfrom u (hidx ▸ List.mem_cons_self ..) hu
    refine ih hfirst fun u hidx hu => ?_
    rw [phase_notify] at hu ⊢
    exact hfrom u (List.mem_cons_of_mem _ hidx) hu

/-- What is taken out of a channel leaves the others as they are. -/
theorem Fresh.drain (h : s.Fresh) (idx : Nat) (log : List Entry)
    (hlog : ∀ entry ∈ log, entry.Good) :
    Fresh { s with
      notifiers := Function.update s.notifiers idx ((s.notifiers idx).map fun _ => [])
      log := s.log ++ log } := by
  constructor
  · intro entry hmem
    obtain hmem | hmem := List.mem_append.mp hmem
    · exact h.good entry hmem
    · exact hlog entry hmem
  · exact h.alone
  · intro u signals hsignals hu signal hmem
    dsimp only at hsignals hu ⊢
    rw [Function.update_apply] at hsignals
    split at hsignals
    · obtain ⟨_, _, rfl⟩ := Option.map_eq_some_iff.mp hsignals
      cases hmem
    · exact h.signals u signals hsignals hu signal hmem
  · exact h.fetched

theorem Fresh.record (h : s.Fresh) {connIds since : Finset Int} (hin : connIds ⊆ since) :
    Fresh { s with log := s.log ++ [.ended v connIds since] } := by
  refine ⟨fun entry hmem => ?_, h.alone, h.signals, h.fetched⟩
  obtain hmem | hmem := List.mem_append.mp hmem
  · exact h.good entry hmem
  · rw [List.mem_singleton.mp hmem]
    exact hin

/-- One call of `try_wait_next`: everybody counted is waited for, so when there are as many as there
should be, there is everybody. -/
theorem Fresh.tryWaitNext (h : s.Fresh) {connIds fetched : Finset Int}
    (hphase : (s.loops v).phase = .waiting connIds fetched) :
    (s.tryWaitNext v connIds fetched).Fresh := by
  obtain ⟨hin, hrecent⟩ := h.fetched v connIds fetched hphase
  have hawaited : (s.loops v).phase.awaited = connIds := by
    rw [hphase]
    rfl
  unfold Pacing.tryWaitNext
  by_cases hempty : connIds = ∅
  · -- nobody to wait for
    subst hempty
    have hleft := h.setPhase (v := v) .leaving (by simp [Phase.awaited]) (by simp)
    simpa [Pacing.setPhase] using hleft.record (v := v) (Finset.empty_subset (s.loops v).since)
  · set signals := (s.notifiers v.idx).getD [] with hsignals
    have hfresh : ∀ signal ∈ signals, signal.connId ∈ connIds ∧ signal.connId ∈ (s.loops v).since ∧
        (signal.service = none ∨ signal.service = some v) := by
      intro signal hmem
      cases hchannel : s.notifiers v.idx with
      | none =>
        rw [hsignals, hchannel] at hmem
        cases hmem
      | some queued =>
        rw [hsignals, hchannel] at hmem
        have := h.signals v queued hchannel (hawaited ▸ hempty) signal hmem
        rwa [hawaited] at this
    have hall : fetched ∪ (signals.map Signal.connId).toFinset ⊆ connIds ∧
        fetched ∪ (signals.map Signal.connId).toFinset ⊆ (s.loops v).since := by
      refine ⟨Finset.union_subset hin ?_, Finset.union_subset hrecent ?_⟩ <;>
      · intro connId hmem
        obtain ⟨signal, hsignal, rfl⟩ := List.mem_map.mp (List.mem_toFinset.mp hmem)
        obtain ⟨hawait, hsince, -⟩ := hfresh signal hsignal
        assumption
    have hdrained := h.drain v.idx (signals.map (.consumed v)) (by
      intro entry hmem
      obtain ⟨signal, hsignal, rfl⟩ := List.mem_map.mp hmem
      exact (hfresh signal hsignal).2.2)
    simp only [if_neg hempty]
    split
    · rename_i hcard
      have heq := Finset.eq_of_subset_of_card_le hall.1 hcard
      have hleft := hdrained.setPhase (v := v) .leaving (by simp [Phase.awaited]) (by simp)
      exact hleft.record (v := v) (heq ▸ hall.2)
    · refine hdrained.setPhase _ (fun _ => hawaited.symm) fun ids others hwait => ?_
      cases hwait
      exact hall

theorem Fresh.step (h : s.Fresh) {e : Event} {s' : Pacing} (hmeets : s.Meets e)
    (hstep : s.step e = some s') : s'.Fresh := by
  cases e with
  | new v =>
    cases hstep
    refine ⟨h.good, h.alone, fun u signals hsignals hu signal hmem => ?_, h.fetched⟩
    dsimp only at hsignals
    rw [Function.update_apply] at hsignals
    split at hsignals
    · rename_i hidx
      cases hold : s.notifiers v.idx with
      | none =>
        rw [hold] at hsignals
        cases hsignals
        cases hmem
      | some old =>
        rw [hold] at hsignals
        cases hsignals
        exact h.signals u old (hidx ▸ hold) hu signal hmem
    · exact h.signals u signals hsignals hu signal hmem
  | frame v connIds =>
    simp only [Pacing.step] at hstep
    split at hstep <;> cases hstep
    exact h.frame hmeets
  | noFrame v =>
    simp only [Pacing.step] at hstep
    split at hstep <;> cases hstep
    exact h.setPhase _ (by simp [Phase.awaited]) (by simp)
  | setSend v =>
    simp only [Pacing.step] at hstep
    split at hstep <;> cases hstep
    rename_i connIds hphase
    have hready := h.setPhase (v := v) (.ready connIds) (by simp [hphase, Phase.awaited])
      (by simp)
    exact hready.bookkeeping _ _
  | beginWait v =>
    simp only [Pacing.step] at hstep
    split at hstep <;> cases hstep
    rename_i connIds hphase
    refine h.setPhase _ (by simp [hphase, Phase.awaited]) fun ids fetched hwait => ?_
    cases hwait
    exact ⟨Finset.empty_subset _, Finset.empty_subset _⟩
  | tryWaitNext v =>
    simp only [Pacing.step] at hstep
    split at hstep <;> cases hstep
    rename_i connIds fetched hphase
    exact h.tryWaitNext hphase
  | limit v =>
    simp only [Pacing.step] at hstep
    split at hstep <;> cases hstep
    exact h.setPhase _ (by simp [Phase.awaited]) (by simp)
  | leave v =>
    simp only [Pacing.step] at hstep
    split at hstep <;> cases hstep
    have hidle := h.setPhase (v := v) .idle (by simp [Phase.awaited]) (by simp)
    exact hidle.bookkeeping _ _
  | stop v =>
    cases hstep
    have hidle := h.setPhase (v := v) .idle (by simp [Phase.awaited]) (by simp)
    exact hidle.bookkeeping _ _
  | fetched v connId =>
    cases hstep
    refine h.notify fun u hidx hu => ?_
    obtain ⟨rfl, hin⟩ := hmeets u hidx hu
    exact ⟨hin, .inr rfl⟩
  | lookUp connId =>
    cases hstep
    exact h.bookkeeping _ _
  | deliver k =>
    simp only [Pacing.step] at hstep
    split at hstep <;> cases hstep
    rename_i connId indices hpending
    have hall := h.notifyAll fun u hidx hu => hmeets (connId, indices) hpending u hidx hu
    exact hall.bookkeeping _ _

/-! ## Whose loop a step is of -/

/-- The service whose video loop takes the step. -/
def Event.loop : Event → Option Service
  | .frame v _ | .noFrame v | .setSend v | .beginWait v | .tryWaitNext v | .limit v | .leave v | .stop v => some v
  | .new _ | .fetched _ _ | .lookUp _ | .deliver _ => none

theorem phase_notifyAll (connId : Int) (indices : List Nat) (u : Service) :
    ((s.notifyAll connId indices).loops u).phase = (s.loops u).phase := by
  induction indices generalizing s with
  | nil => rfl
  | cons idx indices ih => exact ih.trans (phase_notify ..)

theorem phase_tryWaitNext_of_ne {connIds fetched : Finset Int} {u : Service} (hne : u ≠ v) :
    ((s.tryWaitNext v connIds fetched).loops u).phase = (s.loops u).phase := by
  have hphase : ∀ (s' : Pacing) (phase : Phase), ((s'.setPhase v phase).loops u).phase = (s'.loops u).phase := by
    intro s' phase
    rw [loops_setPhase, if_neg hne]
  unfold Pacing.tryWaitNext
  dsimp only
  split_ifs <;> exact hphase _ _

/-- A video loop is where its own steps have left it. -/
theorem phase_step_of_ne {e : Event} {s' : Pacing} {u : Service} (hne : e.loop ≠ some u)
    (hstep : s.step e = some s') : (s'.loops u).phase = (s.loops u).phase := by
  have hother : ∀ v phase, u ≠ v → ((s.setPhase v phase).loops u).phase = (s.loops u).phase := by
    intro v phase huv
    rw [loops_setPhase, if_neg huv]
  have hapart : ∀ v, some v ≠ some u → u ≠ v := by
    rintro v hv rfl
    exact hv rfl
  cases e with
  | new v => cases hstep; rfl
  | frame v connIds =>
    simp only [Pacing.step] at hstep
    split at hstep <;> cases hstep
    exact congrArg Loop.phase (Function.update_of_ne (hapart v hne) ..)
  | noFrame v =>
    simp only [Pacing.step] at hstep
    split at hstep <;> cases hstep
    exact hother v _ (hapart v hne)
  | setSend v =>
    simp only [Pacing.step] at hstep
    split at hstep <;> cases hstep
    exact hother v _ (hapart v hne)
  | beginWait v =>
    simp only [Pacing.step] at hstep
    split at hstep <;> cases hstep
    exact hother v _ (hapart v hne)
  | tryWaitNext v =>
    simp only [Pacing.step] at hstep
    split at hstep <;> cases hstep
    exact phase_tryWaitNext_of_ne (hapart v hne)
  | limit v =>
    simp only [Pacing.step] at hstep
    split at hstep <;> cases hstep
    exact hother v _ (hapart v hne)
  | leave v =>
    simp only [Pacing.step] at hstep
    split at hstep <;> cases hstep
    exact hother v _ (hapart v hne)
  | stop v =>
    cases hstep
    exact hother v _ (hapart v hne)
  | fetched v connId =>
    cases hstep
    exact phase_notify ..
  | lookUp connId => cases hstep; rfl
  | deliver k =>
    simp only [Pacing.step] at hstep
    split at hstep <;> cases hstep
    exact phase_notifyAll ..

/-! ## Any run -/

/-- No video service, no channel. -/
def Init (s : Pacing) : Prop :=
  s = {}

/-- As long as the conditions are met at every step, a wait ends before the limit only when everybody the
frame was sent to has signalled since it went out, and no service takes another one's signal. -/
theorem signals_fresh {history : List (Pacing × Event)} (hx : Exec Init Pacing.step history s)
    (hmeets : ∀ p ∈ history, p.1.Meets p.2) : s.Good := by
  have hfresh : s.Fresh := by
    refine hx.invariant_of (I := Fresh) (G := fun s e => s.Meets e) ?_ ?_ hmeets
    · rintro s rfl
      refine ⟨by simp [Good], ?_, by simp, by simp⟩
      intro u _ _ hu
      exact absurd rfl hu
    · intro s e s' hfresh hmeet hstep
      exact hfresh.step hmeet hstep
  exact hfresh.good

/-- A loop that takes no step waits for nobody. -/
theorem awaited_of_exec {history : List (Pacing × Event)} (hx : Exec Init Pacing.step history s) {u : Service}
    (hnone : ∀ p ∈ history, p.2.loop ≠ some u) : (s.loops u).phase.awaited = ∅ := by
  have hidle : (s.loops u).phase = .idle := by
    refine hx.invariant_of (I := fun s => (s.loops u).phase = .idle) (G := fun _ e => e.loop ≠ some u) ?_ ?_ hnone
    · rintro s rfl
      rfl
    · intro s e s' hidle hne hstep
      exact (phase_step_of_ne hne hstep).trans hidle
  rw [hidle]
  rfl

def first : Service :=
  ⟨.monitor, 0⟩

def firstCamera : Service :=
  ⟨.camera, 0⟩

/-- A frame to two viewers: the first signals for its frame, the second, of whom only the connection is
known, after the first look; then the next frame goes out to both. -/
theorem signals_fresh_two : ∃ history s, Exec Init Pacing.step history s ∧
    (∀ p ∈ history, p.1.Meets p.2) ∧
    s.log = [.consumed first ⟨1, some first⟩, .consumed first ⟨2, none⟩, .ended first {1, 2} {2, 1}] ∧
    (s.loops first).phase = .sent {1, 2} ∧ s.Good := by
  have h0 : Exec Init Pacing.step [] {} := .start rfl
  have h1 := h0.snoc (e := .new first) rfl
  have h2 := h1.snoc (e := .frame first {1, 2}) rfl
  have h3 := h2.snoc (e := .fetched first 1) rfl
  have h4 := h3.snoc (e := .setSend first) rfl
  have h5 := h4.snoc (e := .beginWait first) rfl
  have h6 := h5.snoc (e := .tryWaitNext first) rfl
  have h7 := h6.snoc (e := .lookUp 2) rfl
  have h8 := h7.snoc (e := .deliver 0) rfl
  have h9 := h8.snoc (e := .tryWaitNext first) rfl
  have h10 := h9.snoc (e := .leave first) rfl
  have h11 := h10.snoc (e := .frame first {1, 2}) rfl
  obtain ⟨history, hx, hmeets⟩ : ∃ history, Exec Init Pacing.step history _ ∧ ∀ p ∈ history, p.1.Meets p.2 := by
    refine ⟨_, h11, fun p hp => ?_⟩
    simp only [List.mem_cons, List.not_mem_nil, or_false] at hp
    obtain rfl | rfl | rfl | rfl | rfl | rfl | rfl | rfl | rfl | rfl | rfl := hp
    · intro _
      refine ⟨fun signals hsignals => (Option.some.inj hsignals).symm, fun u _ => ?_⟩
      by_cases hfirst : u = first
      · subst hfirst
        rfl
      · exact awaited_of_exec h10 (by simp [Event.loop, Ne.symm hfirst])
    · trivial
    · trivial
    · rintro p hp u - hu
      obtain rfl := Option.mem_some_iff.1 hp
      by_cases hfirst : u = first
      · subst hfirst
        decide
      · exact absurd (awaited_of_exec h7 (by simp [Event.loop, Ne.symm hfirst])) hu
    · trivial
    · trivial
    · trivial
    · trivial
    · intro u _ hu
      by_cases hfirst : u = first
      · subst hfirst
        exact ⟨rfl, by decide⟩
      · exact absurd (awaited_of_exec h2 (by simp [Event.loop, Ne.symm hfirst])) hu
    · intro _
      exact ⟨fun signals hsignals => (Option.some.inj hsignals).symm, fun _ _ => rfl⟩
    · trivial
  exact ⟨history, _, hx, hmeets, by decide, rfl, signals_fresh hx hmeets⟩

/-- A frame to two viewers of which the second signals only after the limit, and the next frame: its wait
ends when the first viewer has signalled. -/
def late : List Event :=
  [.new first, .frame first {1, 2}, .setSend first, .beginWait first, .fetched first 1,
    .tryWaitNext first, .limit first, .leave first, .fetched first 2, .frame first {1, 2},
    .setSend first, .beginWait first, .fetched first 1, .tryWaitNext first]

/-- A monitor and a camera of the same index, one viewer each: the signal for the camera's frame ends the
wait of the monitor. -/
def shared : List Event :=
  [.new first, .new firstCamera, .frame first {1}, .setSend first, .frame firstCamera {2},
    .setSend firstCamera, .beginWait first, .fetched firstCamera 2, .tryWaitNext first]

theorem exec_of_log {es : List Event} {log : List Entry}
    (h : (Lib.runs Pacing.step {} es).map Pacing.log = some log) :
    ∃ history s, Exec Init Pacing.step history s ∧ s.log = log := by
  obtain ⟨s, hrun, hlog⟩ := Option.map_eq_some_iff.mp h
  obtain ⟨history, hx⟩ := (Exec.start (show Init {} from rfl)).append hrun
  exact ⟨history, s, hx, hlog⟩

theorem stale_signals_counted :
    (∃ history s, Exec Init Pacing.step history s ∧ .ended first {1, 2} {1} ∈ s.log ∧ ¬ s.Good) ∧
    ∃ history s, Exec Init Pacing.step history s ∧ .consumed first ⟨2, some firstCamera⟩ ∈ s.log ∧
      ¬ s.Good := by
  constructor
  · have hlate : (Lib.runs Pacing.step {} late).map Pacing.log =
        some [.consumed first ⟨1, some first⟩, .consumed first ⟨2, some first⟩,
          .consumed first ⟨1, some first⟩, .ended first {1, 2} {1}] := by decide
    obtain ⟨history, s, hx, hlog⟩ := exec_of_log hlate
    have hended : Entry.ended first {1, 2} {1} ∈ s.log := by simp [hlog]
    exact ⟨history, s, hx, hended, fun hgood => absurd (hgood _ hended) (by decide)⟩
  · have hshared : (Lib.runs Pacing.step {} shared).map Pacing.log =
        some [.consumed first ⟨2, some firstCamera⟩, .ended first {1} {2}] := by decide
    obtain ⟨history, s, hx, hlog⟩ := exec_of_log hshared
    have hconsumed : Entry.consumed first ⟨2, some firstCamera⟩ ∈ s.log := by simp [hlog]
    exact ⟨history, s, hx, hconsumed, fun hgood => absurd (hgood _ hconsumed) (by decide)⟩

end Pacing

end FontisRemote.Video
