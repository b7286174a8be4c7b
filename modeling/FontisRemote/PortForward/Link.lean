import Mathlib.Logic.Relation
import FontisRemote.PortForward.Direction
import FontisRemote.PortForward.Tunnel

/-!
# One channel seen alone

A `Link` is what a tunnel has under one id: the two ends and the frames of that id in the queues and
on the stream. `Link.Step` lists what can happen to it, with the rest of the tunnel left open. The
other channels only decide when a frame is pumped or delivered, whether an `open` is refused, and
when `close_all` or the sweep in `on_open` takes the entry.

`Link.Inv` holds of every link in which each end was created at most once: a `Direction` each way.
-/

namespace FontisRemote.PortForward

open Channel

structure Link where
  ctl : End
  srv : End
  dataQ : List Frame
  controlQ : List Frame
  c2s : List Frame
  s2c : List Frame

namespace Link

/-- What can happen to a link. -/
inductive Step : Link → Link → Prop
  | open {l : Link} {id : ChannelId} {serial : Nat} {host : String} {port : Int} {prebuf : Bytes} :
      l.ctl.chan = none →
      Step l { l with ctl := ⟨some ⟨false⟩, some (.opening id serial host port prebuf)⟩ }
  | ctlTask {l : Link} {gone : Bool} {c c' : Channel} {e : TaskEvent} {em : Emit} :
      l.ctl.chan = some c → Did gone l.ctl.entry.isSome c e c' em →
      Step l { l with
        ctl := ⟨if e = .leave then none else l.ctl.entry, some c'⟩
        dataQ := l.dataQ ++ em.ordered
        controlQ := l.controlQ ++ em.control }
  | srvTask {l : Link} {gone : Bool} {c c' : Channel} {e : TaskEvent} {em : Emit} :
      l.srv.chan = some c → Did gone l.srv.entry.isSome c e c' em →
      Step l { l with
        srv := ⟨l.srv.entry, some c'⟩
        s2c := l.s2c ++ em.ordered ++ em.control }
  | pumpData {l : Link} {f : Frame} {q : List Frame} : l.dataQ = f :: q →
      Step l { l with dataQ := q, c2s := l.c2s ++ [f] }
  | pumpControl {l : Link} {f : Frame} {q : List Frame} : l.controlQ = f :: q →
      Step l { l with controlQ := q, c2s := l.c2s ++ [f] }
  | accept {l : Link} {id : ChannelId} {host : String} {port : Int} {window serial : Nat}
      {q : List Frame} : l.c2s = .open id host port window serial :: q → l.srv.entry = none →
      Step l { l with
        c2s := q
        srv := ⟨some ⟨false⟩, some (.connecting id serial host port window)⟩ }
  | refuse {l : Link} {id : ChannelId} {host : String} {port : Int} {window serial : Nat}
      {q : List Frame} {message : String} : l.c2s = .open id host port window serial :: q →
      Step l { l with c2s := q, s2c := l.s2c ++ [.opened id false message 0] }
  | ignore {l : Link} {id : ChannelId} {host : String} {port : Int} {window serial : Nat}
      {q : List Frame} : l.c2s = .open id host port window serial :: q →
      l.srv.entry.isSome = true → Step l { l with c2s := q }
  | srvData {l : Link} {id : ChannelId} {d : Bytes} {q : List Frame} : l.c2s = .data id d :: q →
      Step l { l with c2s := q, srv := l.srv.onData d }
  | srvClose {l : Link} {id : ChannelId} {q : List Frame} : l.c2s = .close id :: q →
      Step l { l with c2s := q, srv := l.srv.onClose }
  | srvUpdate {l : Link} {id : ChannelId} {n : Nat} {q : List Frame} :
      l.c2s = .windowUpdate id n :: q → Step l { l with c2s := q, srv := l.srv.onWindowUpdate n }
  | srvOpened {l : Link} {id : ChannelId} {ok : Bool} {message : String} {window : Nat}
      {q : List Frame} : l.c2s = .opened id ok message window :: q → Step l { l with c2s := q }
  | ctlOpened {l : Link} {id : ChannelId} {message : String} {window : Nat} {q : List Frame} :
      l.s2c = .opened id true message window :: q →
      Step l { l with s2c := q, ctl := l.ctl.onOpened window }
  | ctlRefused {l : Link} {id : ChannelId} {message : String} {window : Nat} {q : List Frame} :
      l.s2c = .opened id false message window :: q → Step l { l with s2c := q, ctl := l.ctl.onClose }
  | ctlData {l : Link} {id : ChannelId} {d : Bytes} {q : List Frame} : l.s2c = .data id d :: q →
      Step l { l with s2c := q, ctl := l.ctl.onData d }
  | ctlClose {l : Link} {id : ChannelId} {q : List Frame} : l.s2c = .close id :: q →
      Step l { l with s2c := q, ctl := l.ctl.onClose }
  | ctlUpdate {l : Link} {id : ChannelId} {n : Nat} {q : List Frame} :
      l.s2c = .windowUpdate id n :: q → Step l { l with s2c := q, ctl := l.ctl.onWindowUpdate n }
  | ctlOpen {l : Link} {id : ChannelId} {host : String} {port : Int} {window serial : Nat}
      {q : List Frame} : l.s2c = .open id host port window serial :: q → Step l { l with s2c := q }
  | ctlDrop {l : Link} : Step l { l with ctl := { l.ctl with entry := none } }
  | srvDrop {l : Link} : Step l { l with srv := { l.srv with entry := none } }

end Link

/-! ## What a frame does to the end it reaches -/

section Frames

variable {p r q : Channel} {pe re qe : Bool} {op ws : List Frame} {b : Nat}

/-- A delivery leaves alone all that its end has as a sender. -/
theorem Direction.sender_frame (h : Direction r q re qe op ws b) (w : RecvWindow)
    (i : List Inbound) : Direction { r with window := w, inbound := i } q re qe op ws b :=
  ⟨h.bal, h.wire.congr rfl, h.credit_le, h.credit_eq, h.written, h.backlog, h.flow, h.exact,
    h.closed, h.ended⟩

/-- Credit leaves alone all that its end has as a receiver. -/
theorem Direction.receiver_credit (h : Direction p r pe re op ws b) (n : Nat) :
    Direction p { r with credit := n } pe re op ws b :=
  ⟨⟨h.bal.le, h.bal.eq, h.bal.drained, h.bal.inbound, h.bal.clean⟩, h.wire, h.credit_le,
    h.credit_eq, h.written, h.backlog, h.flow, h.exact, h.closed, h.ended⟩

theorem Channel.Ok.frame (h : r.Ok) (w : RecvWindow) (i : List Inbound) :
    Ok { r with window := w, inbound := i } := ⟨h.allow_ge, h.off_le, h.early, h.pendingLen_eq, h.late⟩

theorem Channel.Ok.credit (h : r.Ok) (n : Nat) : Ok { r with credit := n } :=
  ⟨h.allow_ge, h.off_le, h.early, h.pendingLen_eq, h.late⟩

theorem Channel.push_eq (r : Channel) (i : Inbound) :
    ∃ j, r.push i = { r with window := r.window, inbound := j } := by
  unfold Channel.push
  split
  · exact ⟨_, rfl⟩
  · exact ⟨r.inbound, rfl⟩

/-- A `data` frame an honest sender has on its way is never refused. -/
theorem Direction.onData {id : ChannelId} {d : Bytes} {ent : Option Entry}
    (h : Direction p r pe ent.isSome [] (.data id d :: ws) b) :
    ∃ (w : RecvWindow) (i : List Inbound) (ent' : Option Entry),
      End.onData ⟨ent, some r⟩ d = ⟨ent', some { r with window := w, inbound := i }⟩ ∧
      (ent' = ent ∨ ent' = none) ∧
      Direction p { r with window := w, inbound := i } pe ent'.isSome [] ws b := by
  cases ent with
  | none => exact ⟨r.window, r.inbound, none, rfl, Or.inl rfl, h.data_dropped rfl⟩
  | some ent =>
    have hacc := h.accept
    simp only [Frame.charge] at hacc
    obtain ⟨w, hw⟩ := Option.isSome_iff_exists.1 (RecvWindow.accept_isSome.2 hacc)
    simp only [End.onData, hw]
    by_cases hr : r.receiving = true
    · refine ⟨w, r.inbound ++ [.data d], some ent, ?_, Or.inl rfl, h.data hr hw⟩
      have hr' : Channel.receiving { r with window := w } = true := hr
      simp [Channel.push, hr']
    · have hr0 : r.receiving = false := by simpa using hr
      refine ⟨w, r.inbound, none, ?_, Or.inr rfl, h.data_deaf hr0 hw⟩
      have hr' : Channel.receiving { r with window := w } = false := hr0
      simp [hr']

theorem Direction.onClose {f : Frame} {ent : Option Entry}
    (h : Direction p r pe ent.isSome [] (f :: ws) b) (hp : p.Ok) (hf : f.ends = true) :
    ∃ (w : RecvWindow) (i : List Inbound),
      End.onClose ⟨ent, some r⟩ = ⟨none, some { r with window := w, inbound := i }⟩ ∧
      Direction p { r with window := w, inbound := i } pe false [] ws b := by
  cases ent with
  | none => exact ⟨r.window, r.inbound, rfl, h.close_dropped hf⟩
  | some ent =>
    obtain ⟨j, hj⟩ := r.push_eq .close
    have h' := h.close hp hf
    rw [hj] at h'
    exact ⟨r.window, j, by simp [End.onClose, hj], h'⟩

theorem Direction.onWindowUpdate {n : Nat} {ent : Option Entry}
    (h : Direction p r ent.isSome re op ws (b + n)) :
    ∃ k, End.onWindowUpdate ⟨ent, some p⟩ n = ⟨ent, some { p with credit := k }⟩ ∧
      Direction { p with credit := k } r ent.isSome re op ws b := by
  cases ent with
  | none => exact ⟨p.credit, rfl, h.credit_dropped (Nat.le_add_right _ _)⟩
  | some ent =>
    obtain ⟨hadd, h'⟩ := h.credit
    exact ⟨p.credit + n, by simp [End.onWindowUpdate, hadd], h'⟩

/-- `opened` carries the grant once. -/
theorem Direction.onOpened {ent : Option Entry} (hent : ∀ x, ent = some x → x.opened = false)
    (h : Direction p r ent.isSome re op ws (b + (channelWindow - initialWindow))) :
    ∃ (k : Nat) (ent' : Option Entry),
      End.onOpened ⟨ent, some p⟩ channelWindow = ⟨ent', some { p with credit := k }⟩ ∧
      ent'.isSome = ent.isSome ∧ Direction { p with credit := k } r ent.isSome re op ws b := by
  cases ent with
  | none => exact ⟨p.credit, none, rfl, rfl, h.credit_dropped (Nat.le_add_right _ _)⟩
  | some ent =>
    obtain ⟨hadd, h'⟩ := h.credit
    refine ⟨_, some ⟨true⟩, ?_, rfl, h'⟩
    simp [End.onOpened, hent ent rfl, SendCredit.raiseInitial_channelWindow, hadd]

end Frames

end FontisRemote.PortForward
