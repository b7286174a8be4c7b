import FontisRemote.PortForward.Channel

/-!
# What a step of a channel task can do

`Channel.Did` lists the transitions of `Channel.step` with their guards, one constructor each, and
`Channel.did_of_step` says there are no others. The rest of the file reads off it, for each role
of the channel, what one step does to the quantities the two ends share:

* as a sender, the credit it holds and the bytes it has read but not handed to its sink
  (`Did.held`, `Did.outgoing`);
* as a receiver, its window, its backlog and what it has written (`Did.window`, `Did.backlog`).
-/

namespace FontisRemote.PortForward

namespace Channel

/-- One transition of the task, by its cause. -/
inductive Did (gone entry : Bool) (c : Channel) : TaskEvent → Channel → Emit → Prop
  | sendOpen : c.stage = .opening → Did gone entry c .sendOpen { c with stage := .running }
      (.onOrdered (.open c.id c.host c.port channelWindow c.serial))
  | sendOpenFails : c.stage = .opening → gone = true →
      Did gone entry c .sendOpenFails { c with stage := .leaving } .nothing
  | connectData {b : Bytes} {rest : List Inbound} : c.stage = .connecting →
      c.inbound = .data b :: rest → pendingFits c.pendingLen b.length = true →
      Did gone entry c .connectRecv
        { c with
          inbound := rest
          pendingLen := c.pendingLen + charge b.length
          pending := c.pending ++ [b] } .nothing
  | connectOverflow {b : Bytes} {rest : List Inbound} : c.stage = .connecting →
      c.inbound = .data b :: rest → pendingFits c.pendingLen b.length = false →
      Did gone entry c .connectRecv { c with inbound := rest, stage := .exited }
        (.onOrdered (.close c.id))
  | connectClose {rest : List Inbound} : c.stage = .connecting → c.inbound = .close :: rest →
      Did gone entry c .connectRecv { c with inbound := rest, stage := .exited } .nothing
  | connectViolation {rest : List Inbound} : c.stage = .connecting →
      c.inbound = .violation :: rest →
      Did gone entry c .connectRecv { c with inbound := rest, stage := .exited }
        (.onOrdered (.close c.id))
  | connectGone : c.stage = .connecting → c.inbound = [] → entry = false →
      Did gone entry c .connectRecv { c with stage := .exited } .nothing
  | connected : c.stage = .connecting →
      Did gone entry c .connected
        { c with
          stage := .granted
          window := c.window.grant (channelWindow - initialWindow) } .nothing
  | connectFails {message : String} : c.stage = .connecting →
      Did gone entry c (.connectFails message) { c with stage := .exited }
        (.onOrdered (.opened c.id false message 0))
  | sendOpened : c.stage = .granted → Did gone entry c .sendOpened { c with stage := .running }
      (.onOrdered (.opened c.id true "" channelWindow))
  | sendOpenedFails : c.stage = .granted → gone = true →
      Did gone entry c .sendOpenedFails { c with stage := .exited } .nothing
  | take {allow left : Nat} : c.stage = .running → c.toTunnel = .taking →
      SendCredit.take c.credit maxFrame = some (allow, left) →
      Did gone entry c .take { c with credit := left, toTunnel := .reading allow } .nothing
  | takeCancelled : c.stage = .running → c.toTunnel = .taking → c.cancel = true →
      Did gone entry c .takeCancelled { c with toTunnel := .ended .cancelled } .nothing
  | read {allow : Nat} {bs : Bytes} : c.stage = .running → c.toTunnel = .reading allow →
      c.offers allow bs = true →
      Did gone entry c (.read bs)
        { c with
          credit := if charge bs.length < allow
            then SendCredit.add c.credit (allow - charge bs.length) else c.credit
          toTunnel := .sending bs
          prebuf := c.prebuf.drop bs.length
          read := c.read ++ bs } .nothing
  | readEof {allow : Nat} : c.stage = .running → c.toTunnel = .reading allow → c.prebuf = [] →
      Did gone entry c .readEof
        { c with
          credit := if 0 < allow then SendCredit.add c.credit allow else c.credit
          toTunnel := .ended .localEof } .nothing
  | readCancelled {allow : Nat} : c.stage = .running → c.toTunnel = .reading allow →
      c.cancel = true →
      Did gone entry c .readCancelled
        { c with credit := SendCredit.add c.credit allow, toTunnel := .ended .cancelled } .nothing
  | sendData {bs : Bytes} : c.stage = .running → c.toTunnel = .sending bs →
      Did gone entry c .sendData { c with toTunnel := .taking } (.onOrdered (.data c.id bs))
  | sendDataFails {bs : Bytes} : c.stage = .running → c.toTunnel = .sending bs → gone = true →
      Did gone entry c .sendDataFails { c with toTunnel := .ended .tunnelGone } .nothing
  | nextPending {chunk : Bytes} {rest : List Bytes} : c.stage = .running → c.toSocket = .next →
      c.pending = chunk :: rest →
      Did gone entry c .nextPending { c with toSocket := .writing chunk 0, pending := rest } .nothing
  | nextData {chunk : Bytes} {rest : List Inbound} : c.stage = .running → c.toSocket = .next →
      c.pending = [] → c.inbound = .data chunk :: rest →
      Did gone entry c .nextInbound { c with toSocket := .writing chunk 0, inbound := rest } .nothing
  | nextClose {rest : List Inbound} : c.stage = .running → c.toSocket = .next →
      c.pending = [] → c.inbound = .close :: rest →
      Did gone entry c .nextInbound { c with toSocket := .ended .peerClosed, inbound := rest } .nothing
  | nextViolation {rest : List Inbound} : c.stage = .running → c.toSocket = .next →
      c.pending = [] → c.inbound = .violation :: rest →
      Did gone entry c .nextInbound { c with toSocket := .ended .violation, inbound := rest } .nothing
  | nextGone : c.stage = .running → c.toSocket = .next → c.pending = [] → c.inbound = [] →
      entry = false →
      Did gone entry c .nextInbound { c with toSocket := .ended .tunnelGone } .nothing
  | nextCancelled : c.stage = .running → c.toSocket = .next → c.pending = [] → c.cancel = true →
      Did gone entry c .nextCancelled { c with toSocket := .ended .cancelled } .nothing
  | write {chunk : Bytes} {off n : Nat} : c.stage = .running → c.toSocket = .writing chunk off →
      off + n ≤ chunk.length →
      Did gone entry c (.write n)
        { c with
          toSocket := .writing chunk (off + n)
          written := c.written ++ (chunk.drop off).take n } .nothing
  | writeDone {chunk : Bytes} {w : RecvWindow} : c.stage = .running →
      c.toSocket = .writing chunk chunk.length → c.window.drained chunk.length = (w, none) →
      Did gone entry c .writeDone { c with window := w, toSocket := .next } .nothing
  | writeDoneUpdate {chunk : Bytes} {w : RecvWindow} {add : Nat} : c.stage = .running →
      c.toSocket = .writing chunk chunk.length → c.window.drained chunk.length = (w, some add) →
      Did gone entry c .writeDone { c with window := w, toSocket := .advertising add } .nothing
  | writeFails {chunk : Bytes} {off : Nat} : c.stage = .running → c.toSocket = .writing chunk off →
      Did gone entry c .writeFails { c with toSocket := .ended .localEof } .nothing
  | writeCancelled {chunk : Bytes} {off : Nat} : c.stage = .running →
      c.toSocket = .writing chunk off → c.cancel = true →
      Did gone entry c .writeCancelled { c with toSocket := .ended .cancelled } .nothing
  | advertise {add : Nat} : c.stage = .running → c.toSocket = .advertising add →
      Did gone entry c .advertise { c with toSocket := .next } (.onControl (.windowUpdate c.id add))
  | advertiseFails {add : Nat} : c.stage = .running → c.toSocket = .advertising add → gone = true →
      Did gone entry c .advertiseFails { c with toSocket := .ended .tunnelGone } .nothing
  | signalCancel : c.stage = .running →
      Did gone entry c .signalCancel { c with cancel := true } .nothing
  | join {first second : RelayEnd} : c.stage = .running → c.toTunnel = .ended first →
      c.toSocket = .ended second →
      Did gone entry c .join
        { c with stage := if sendsClose first second then .closing else .leaving } .nothing
  | sendClose : c.stage = .closing → Did gone entry c .sendClose { c with stage := .leaving }
      (.onOrdered (.close c.id))
  | sendCloseFails : c.stage = .closing → gone = true →
      Did gone entry c .sendCloseFails { c with stage := .leaving } .nothing
  | leave : c.stage = .leaving → Did gone entry c .leave { c with stage := .exited } .nothing

section Inversion

variable {down gone entry : Bool} {c c' : Channel} {e : TaskEvent} {em : Emit}

theorem did_of_relaySocketToTunnel (hs : c.stage = .running)
    (h : relaySocketToTunnel gone c e = some (c', em)) : Did gone entry c e c' em := by
  unfold relaySocketToTunnel at h
  split at h
  · split at h
    · next htt htake =>
      cases h
      exact .take hs htt htake
    · cases h
  · split at h
    · next htt =>
      split at h
      · cases h
        exact .takeCancelled hs htt ‹_›
      · cases h
    · cases h
  · split at h
    · next htt =>
      split at h
      · cases h
        exact .read hs htt ‹_›
      · cases h
    · cases h
  · split at h
    · next htt =>
      split at h
      · cases h
        exact .readEof hs htt ‹_›
      · cases h
    · cases h
  · split at h
    · next htt =>
      split at h
      · cases h
        exact .readCancelled hs htt ‹_›
      · cases h
    · cases h
  · split at h
    · next htt =>
      cases h
      exact .sendData hs htt
    · cases h
  · split at h
    · next htt =>
      split at h
      · cases h
        exact .sendDataFails hs htt ‹_›
      · cases h
    · cases h
  · cases h

theorem did_of_relayTunnelToSocket (hs : c.stage = .running)
    (h : relayTunnelToSocket gone entry c e = some (c', em)) : Did gone entry c e c' em := by
  unfold relayTunnelToSocket at h
  split at h
  · split at h
    · next hts hp =>
      cases h
      exact .nextPending hs hts hp
    · cases h
  · split at h
    · next hts hp hi =>
      cases h
      exact .nextData hs hts hp hi
    · next hts hp hi =>
      cases h
      exact .nextClose hs hts hp hi
    · next hts hp hi =>
      cases h
      exact .nextViolation hs hts hp hi
    · next hts hp hi =>
      split at h
      · cases h
      · next he =>
        cases h
        exact .nextGone hs hts hp hi (by simpa using he)
    · cases h
  · split at h
    · next hts hp =>
      split at h
      · cases h
        exact .nextCancelled hs hts hp ‹_›
      · cases h
    · cases h
  · split at h
    · next hts =>
      split at h
      · cases h
        exact .write hs hts ‹_›
      · cases h
    · cases h
  · split at h
    · next hts =>
      split at h
      · next hoff =>
        subst hoff
        split at h
        · next hd =>
          cases h
          exact .writeDone hs hts hd
        · next hd =>
          cases h
          exact .writeDoneUpdate hs hts hd
      · cases h
    · cases h
  · split at h
    · next hts =>
      cases h
      exact .writeFails hs hts
    · cases h
  · split at h
    · next hts =>
      split at h
      · cases h
        exact .writeCancelled hs hts ‹_›
      · cases h
    · cases h
  · split at h
    · next hts =>
      cases h
      exact .advertise hs hts
    · cases h
  · split at h
    · next hts =>
      split at h
      · cases h
        exact .advertiseFails hs hts ‹_›
      · cases h
    · cases h
  · cases h

theorem did_of_runChannel (hs : c.stage = .running)
    (h : runChannel down c e = some (c', em)) : Did gone entry c e c' em := by
  unfold runChannel at h
  split at h
  · split at h
    · cases h
      exact .signalCancel hs
    · cases h
  · split at h
    · next h1 h2 =>
      cases h
      exact .join hs h1 h2
    · cases h
  · cases h

/-- A step of the task is one of the listed transitions. -/
theorem did_of_step (h : c.step down gone entry e = some (c', em)) : Did gone entry c e c' em := by
  unfold step at h
  split at h
  · next hs =>
    split at h
    · cases h
      exact .sendOpen hs
    · split at h
      · cases h
        exact .sendOpenFails hs ‹_›
      · cases h
    · cases h
  · next hs =>
    split at h
    · split at h
      · next hi =>
        split at h
        · cases h
          exact .connectData hs hi ‹_›
        · next hf =>
          cases h
          exact .connectOverflow hs hi (by simpa using hf)
      · next hi =>
        cases h
        exact .connectClose hs hi
      · next hi =>
        cases h
        exact .connectViolation hs hi
      · next hi =>
        split at h
        · cases h
        · next he =>
          cases h
          exact .connectGone hs hi (by simpa using he)
    · cases h
      exact .connected hs
    · cases h
      exact .connectFails hs
    · cases h
  · next hs =>
    split at h
    · cases h
      exact .sendOpened hs
    · split at h
      · cases h
        exact .sendOpenedFails hs ‹_›
      · cases h
    · cases h
  · next hs =>
    split at h
    · next r hr =>
      cases h
      exact did_of_relaySocketToTunnel hs hr
    · split at h
      · next r hr =>
        cases h
        exact did_of_relayTunnelToSocket hs hr
      · exact did_of_runChannel hs h
  · next hs =>
    split at h
    · cases h
      exact .sendClose hs
    · split at h
      · cases h
        exact .sendCloseFails hs ‹_›
      · cases h
    · cases h
  · next hs =>
    split at h
    · cases h
      exact .leave hs
    · cases h
  · cases h

end Inversion

/-! ## Quantities -/

/-- Credit taken for the read in progress. -/
def taken (c : Channel) : Nat :=
  match c.toTunnel with
  | .reading allow => allow
  | _ => 0

/-- The charge of a frame read but not yet handed to the sink. -/
def outgoingCharge (c : Channel) : Nat :=
  match c.toTunnel with
  | .sending bs => charge bs.length
  | _ => 0

/-- All the credit this end holds as a sender. -/
def held (c : Channel) : Nat := c.credit + c.taken + c.outgoingCharge

/-- Bytes read but not yet handed to the sink. -/
def outgoing (c : Channel) : Bytes :=
  match c.toTunnel with
  | .sending bs => bs
  | _ => []

end Channel

def Inbound.charge : Inbound → Nat
  | .data b => PortForward.charge b.length
  | _ => 0

def Inbound.bytes : Inbound → Bytes
  | .data b => b
  | _ => []

namespace Channel

/-- The charge of what was accepted and not yet drained: the chunk being written, the buffer, the
inbound queue. -/
def queued (c : Channel) : Nat :=
  (match c.toSocket with
    | .writing chunk _ => charge chunk.length
    | _ => 0) + (c.pending.map (charge ·.length)).sum + (c.inbound.map Inbound.charge).sum

/-- The bytes accepted and not yet written. -/
def backlog (c : Channel) : Bytes :=
  (match c.toSocket with
    | .writing chunk off => chunk.drop off
    | _ => []) ++ c.pending.flatten ++ c.inbound.flatMap Inbound.bytes

/-- An update credited back and not yet handed to the sink. -/
def advertised (c : Channel) : Nat :=
  match c.toSocket with
  | .advertising add => add
  | _ => 0

/-- The task does nothing more to its socket or its sink. -/
def finished (c : Channel) : Bool :=
  match c.stage with
  | .leaving | .exited => true
  | _ => false

end Channel

namespace Frame

def charge : Frame → Nat
  | .data _ b => PortForward.charge b.length
  | _ => 0

def bytes : Frame → Bytes
  | .data _ b => b
  | _ => []

def update : Frame → Nat
  | .windowUpdate _ n => n
  | _ => 0

def isUpdate : Frame → Bool
  | .windowUpdate .. => true
  | _ => false

def isData : Frame → Bool
  | .data .. => true
  | _ => false

/-- A frame after which its sender sends nothing more. -/
def ends : Frame → Bool
  | .close _ => true
  | .opened _ success .. => !success
  | _ => false

end Frame

def dataCharge (fs : List Frame) : Nat := (fs.map Frame.charge).sum
def dataBytes (fs : List Frame) : Bytes := fs.flatMap Frame.bytes
def updates (fs : List Frame) : Nat := (fs.map Frame.update).sum

@[simp] theorem dataCharge_nil : dataCharge [] = 0 := rfl
@[simp] theorem dataCharge_cons (f : Frame) (fs : List Frame) :
    dataCharge (f :: fs) = f.charge + dataCharge fs := by simp [dataCharge]
@[simp] theorem dataCharge_append (fs gs : List Frame) :
    dataCharge (fs ++ gs) = dataCharge fs + dataCharge gs := by simp [dataCharge]
@[simp] theorem dataBytes_nil : dataBytes [] = [] := rfl
@[simp] theorem dataBytes_cons (f : Frame) (fs : List Frame) :
    dataBytes (f :: fs) = f.bytes ++ dataBytes fs := by simp [dataBytes]
@[simp] theorem dataBytes_append (fs gs : List Frame) :
    dataBytes (fs ++ gs) = dataBytes fs ++ dataBytes gs := by simp [dataBytes]
@[simp] theorem updates_nil : updates [] = 0 := rfl
@[simp] theorem updates_cons (f : Frame) (fs : List Frame) :
    updates (f :: fs) = f.update + updates fs := by simp [updates]
@[simp] theorem updates_append (fs gs : List Frame) :
    updates (fs ++ gs) = updates fs + updates gs := by simp [updates]

namespace Channel

/-- What the code keeps true of one end by itself. -/
structure Ok (c : Channel) : Prop where
  /-- `take` parks below a whole minimum charge. -/
  allow_ge : ∀ {allow}, c.toTunnel = .reading allow → minFrameCharge ≤ allow
  off_le : ∀ {chunk off}, c.toSocket = .writing chunk off → off ≤ chunk.length
  /-- Nothing was read or written before `run_channel`. -/
  early : c.stage = .opening ∨ c.stage = .connecting ∨ c.stage = .granted →
    c.toTunnel = .taking ∧ c.toSocket = .next ∧ c.read = [] ∧ c.written = []
  pendingLen_eq : c.stage = .connecting → c.pendingLen = (c.pending.map (charge ·.length)).sum
  /-- Nothing is left to send once the halves are joined. -/
  late : c.stage = .closing ∨ c.stage = .leaving ∨ c.stage = .exited → c.outgoing = []

section Facts

variable {gone entry : Bool} {c c' : Channel} {e : TaskEvent} {em : Emit}

theorem Did.id_eq (h : Did gone entry c e c' em) :
    c'.id = c.id ∧ c'.serial = c.serial ∧ c'.host = c.host ∧ c'.port = c.port := by
  cases h <;> exact ⟨rfl, rfl, rfl, rfl⟩

theorem Did.ok (h : Did gone entry c e c' em) (hc : c.Ok) : c'.Ok := by
  obtain ⟨h1, h2, h3, h4, h5⟩ := hc
  cases h with
  | take hs ht htake =>
    obtain ⟨hmin, rfl, -⟩ := SendCredit.take_eq_some htake
    have hmf : minFrameCharge ≤ maxFrame := by decide
    refine ⟨?_, h2, ?_, h4, ?_⟩
    · intro allow ha
      cases ha
      exact le_min hmin hmf
    · intro hst
      simp [hs] at hst
    · intro hst
      simp [hs] at hst
  | write hs ht hle =>
    refine ⟨h1, ?_, ?_, h4, h5⟩
    · intro chunk off hw
      cases hw
      exact hle
    · intro hst
      simp [hs] at hst
  | connectData hs hi hf =>
    refine ⟨h1, h2, h3, ?_, h5⟩
    intro hst
    simp [h4 hs]
  | join hs ht hso =>
    refine ⟨h1, h2, ?_, ?_, ?_⟩
    · simp only
      split <;> simp
    · simp only
      split <;> simp
    · intro _
      simp [Channel.outgoing, ht]
  | _ =>
    refine ⟨?_, ?_, ?_, ?_, ?_⟩ <;> simp_all [Channel.outgoing]

/-- As a sender: no step makes credit, and only a frame the sink refused loses any. -/
theorem Did.held (h : Did gone entry c e c' em) (hc : c.Ok) (hcap : c.held ≤ maxSendCredit) :
    c'.held + dataCharge em.ordered ≤ c.held ∧
      (e ≠ .sendDataFails → c'.held + dataCharge em.ordered = c.held) := by
  cases h with
  | take hs ht htake =>
    obtain ⟨hmin, rfl, rfl⟩ := SendCredit.take_eq_some htake
    simp [Channel.held, taken, outgoingCharge, ht, Emit.nothing]
  | read hs ht ho =>
    rename_i allow bs
    have hle : charge bs.length ≤ allow := by
      refine charge_le_of_le ?_ (hc.allow_ge ht)
      unfold offers at ho
      split at ho
      · simp only [Bool.and_eq_true, decide_eq_true_eq] at ho
        exact ho.2
      · simp only [decide_eq_true_eq] at ho
        rw [ho]
        exact List.length_take_le _ _
    simp only [Channel.held, taken, outgoingCharge, ht] at hcap
    have hadd := @SendCredit.add_eq c.credit (allow - charge bs.length) (by omega)
    have heq : (if charge bs.length < allow then SendCredit.add c.credit (allow - charge bs.length)
        else c.credit) + charge bs.length = c.credit + allow := by
      split
      · omega
      · omega
    simp only [Channel.held, taken, outgoingCharge, ht, Emit.nothing, dataCharge_nil]
    omega
  | readEof hs ht hp =>
    rename_i allow
    simp only [Channel.held, taken, outgoingCharge, ht] at hcap
    have hadd := @SendCredit.add_eq c.credit allow (by omega)
    simp only [Channel.held, taken, outgoingCharge, ht, Emit.nothing, dataCharge_nil]
    split <;> omega
  | readCancelled hs ht hp =>
    rename_i allow
    simp only [Channel.held, taken, outgoingCharge, ht] at hcap
    have hadd := @SendCredit.add_eq c.credit allow (by omega)
    simp only [Channel.held, taken, outgoingCharge, ht, Emit.nothing, dataCharge_nil]
    omega
  | _ => simp_all [Channel.held, taken, outgoingCharge, Emit.nothing, Emit.onOrdered, Emit.onControl,
      Frame.charge]

/-- As a sender: the bytes read leave in order, and only a frame the sink refused is dropped. -/
theorem Did.outgoing (h : Did gone entry c e c' em) :
    (∃ bs, c'.read = c.read ++ bs ∧ c.outgoing ++ bs = dataBytes em.ordered ++ c'.outgoing) ∨
      (e = .sendDataFails ∧ c'.read = c.read ∧ em = .nothing ∧ c'.outgoing = []) := by
  cases h with
  | sendDataFails hs ht hd => exact Or.inr ⟨rfl, rfl, rfl, rfl⟩
  | read hs ht ho =>
    refine Or.inl ⟨_, rfl, ?_⟩
    simp [Channel.outgoing, ht, Emit.nothing]
  | _ =>
    refine Or.inl ⟨[], by simp, ?_⟩
    simp_all [Channel.outgoing, Emit.nothing, Emit.onOrdered, Emit.onControl, Frame.bytes]

/-- What `connected` adds to the window. -/
def grantOf : TaskEvent → Nat
  | .connected => channelWindow - initialWindow
  | _ => 0

/-- As a receiver: what leaves the window comes back as an update, and only an update the sink
refused is lost. -/
theorem Did.window (h : Did gone entry c e c' em) (hc : c.Ok)
    (hcap : c.window.remaining + c.window.drainedSinceUpdate + c.queued ≤ channelWindow) :
    c'.advertised + updates em.control + c.window.remaining + grantOf e ≤
        c.advertised + c'.window.remaining ∧
      (e ≠ .advertiseFails → c'.advertised + updates em.control + c.window.remaining + grantOf e =
        c.advertised + c'.window.remaining) := by
  have h32 : channelWindow + channelWindow ≤ u32Max := by decide
  cases h with
  | connected hs =>
    have hsat := satAdd_eq (a := c.window.remaining) (b := channelWindow - initialWindow) (by omega)
    have hts := (hc.early (Or.inr (Or.inl hs))).2.1
    simp [Channel.advertised, grantOf, RecvWindow.grant, hsat, hts, Emit.nothing]
  | writeDone hs ht hd =>
    rcases RecvWindow.drained_cases c.window _ with ⟨heq, -⟩ | heq
    · rw [heq] at hd
      cases hd
      simp [Channel.advertised, grantOf, ht, Emit.nothing]
    · rw [heq] at hd
      cases hd
  | writeDoneUpdate hs ht hd =>
    rename_i chunk w add
    have hq : c.window.remaining + (c.window.drainedSinceUpdate + charge chunk.length) ≤
        channelWindow := by
      simp only [queued, ht] at hcap
      omega
    rcases RecvWindow.drained_cases c.window chunk.length with ⟨heq, -⟩ | heq
    · rw [heq] at hd
      cases hd
    · rw [heq] at hd
      cases hd
      have h1 := satAdd_eq (a := c.window.drainedSinceUpdate) (b := charge chunk.length) (by omega)
      have h2 := satAdd_eq (a := c.window.remaining)
        (b := c.window.drainedSinceUpdate + charge chunk.length) (by omega)
      simp only [Channel.advertised, grantOf, ht, Emit.nothing, updates_nil, h1, h2]
      omega
  | advertise hs ht =>
    simp [Channel.advertised, grantOf, ht, Emit.onControl, Frame.update]
  | _ => simp_all [Channel.advertised, grantOf, Emit.nothing, Emit.onOrdered]

/-- As a receiver: while the task listens, window, withheld drains and backlog add up to what was
granted. -/
theorem Did.balance (h : Did gone entry c e c' em)
    (hcap : c.window.remaining + c.window.drainedSinceUpdate + c.queued ≤ channelWindow)
    (hr : c'.receiving = true) :
    c'.window.remaining + c'.window.drainedSinceUpdate + c'.queued =
      c.window.remaining + c.window.drainedSinceUpdate + c.queued + grantOf e := by
  have h32 : channelWindow + channelWindow ≤ u32Max := by decide
  cases h with
  | connected hs =>
    have hsat := satAdd_eq (a := c.window.remaining) (b := channelWindow - initialWindow) (by omega)
    simp only [RecvWindow.grant, grantOf, hsat, queued]
    omega
  | connectData hs hi hf =>
    simp only [queued, hi, List.map_append, List.sum_append, List.map_cons, List.sum_cons,
      List.map_nil, List.sum_nil, Inbound.charge, grantOf]
    omega
  | nextPending hs ht hp =>
    simp only [queued, ht, hp, List.map_cons, List.sum_cons, grantOf]
    omega
  | nextData hs ht hp hi =>
    simp only [queued, ht, hp, hi, List.map_cons, List.sum_cons, List.map_nil, List.sum_nil,
      Inbound.charge, grantOf]
    omega
  | write hs ht hle => simp [queued, ht, grantOf]
  | writeDone hs ht hd =>
    rename_i chunk w
    rcases RecvWindow.drained_cases c.window chunk.length with ⟨heq, -⟩ | heq
    · rw [heq] at hd
      cases hd
      simp only [queued, ht] at hcap
      have h1 := satAdd_eq (a := c.window.drainedSinceUpdate) (b := charge chunk.length) (by omega)
      simp only [queued, ht, grantOf, h1]
      omega
    · rw [heq] at hd
      cases hd
  | writeDoneUpdate hs ht hd =>
    rename_i chunk w add
    rcases RecvWindow.drained_cases c.window chunk.length with ⟨heq, -⟩ | heq
    · rw [heq] at hd
      cases hd
    · rw [heq] at hd
      cases hd
      simp only [queued, ht] at hcap
      have h1 := satAdd_eq (a := c.window.drainedSinceUpdate) (b := charge chunk.length) (by omega)
      have h2 := satAdd_eq (a := c.window.remaining)
        (b := c.window.drainedSinceUpdate + charge chunk.length) (by omega)
      simp only [queued, ht, grantOf, h1, h2]
      omega
  | _ => simp_all [queued, grantOf, receiving]

/-- Draining withholds less than the threshold. -/
theorem Did.drained_lt (h : Did gone entry c e c' em)
    (hlt : c.window.drainedSinceUpdate < updateThreshold) :
    c'.window.drainedSinceUpdate < updateThreshold := by
  cases h with
  | writeDone hs ht hd =>
    rcases RecvWindow.drained_cases c.window _ with ⟨heq, hlt'⟩ | heq
    · rw [heq] at hd
      cases hd
      exact hlt'
    · rw [heq] at hd
      cases hd
  | writeDoneUpdate hs ht hd =>
    rcases RecvWindow.drained_cases c.window _ with ⟨heq, -⟩ | heq
    · rw [heq] at hd
      cases hd
    · rw [heq] at hd
      cases hd
      show 0 < updateThreshold
      decide
  | connected hs =>
    show (c.window.grant _).drainedSinceUpdate < updateThreshold
    rw [RecvWindow.grant_drainedSinceUpdate]
    exact hlt
  | _ => simpa only using hlt

/-- As a receiver: what is written comes off the front of the backlog. -/
theorem Did.backlog (h : Did gone entry c e c' em) (hc : c.Ok) :
    c'.written <+: c.written ++ c.backlog ∧
      (c'.receiving = true → c'.written ++ c'.backlog = c.written ++ c.backlog) := by
  cases h with
  | connectData hs hi hf =>
    refine ⟨List.prefix_append _ _, fun _ => ?_⟩
    have hts := (hc.early (Or.inr (Or.inl hs))).2.1
    simp [Channel.backlog, hi, Inbound.bytes, hts]
  | nextPending hs ht hp =>
    refine ⟨List.prefix_append _ _, fun _ => ?_⟩
    simp [Channel.backlog, ht, hp]
  | nextData hs ht hp hi =>
    refine ⟨List.prefix_append _ _, fun _ => ?_⟩
    simp [Channel.backlog, ht, hp, hi, Inbound.bytes]
  | write hs ht hle =>
    rename_i chunk off n
    have hsplit : (chunk.drop off).take n ++ chunk.drop (off + n) = chunk.drop off := by
      rw [← List.drop_drop]
      exact List.take_append_drop n (chunk.drop off)
    have heq : (c.written ++ (chunk.drop off).take n) ++ (chunk.drop (off + n) ++
        c.pending.flatten ++ c.inbound.flatMap Inbound.bytes) = c.written ++ c.backlog := by
      simp only [Channel.backlog, ht, List.append_assoc]
      rw [← List.append_assoc (List.take n _), hsplit]
    exact ⟨⟨_, heq⟩, fun _ => heq⟩
  | writeDone hs ht hd =>
    refine ⟨List.prefix_append _ _, fun _ => ?_⟩
    simp [Channel.backlog, ht]
  | writeDoneUpdate hs ht hd =>
    refine ⟨List.prefix_append _ _, fun _ => ?_⟩
    simp [Channel.backlog, ht]
  | advertise hs ht =>
    refine ⟨List.prefix_append _ _, fun _ => ?_⟩
    simp [Channel.backlog, ht]
  | _ =>
    refine ⟨List.prefix_append _ _, fun hr => ?_⟩
    simp_all [Channel.backlog, receiving]

/-- The task never starts listening again. -/
theorem Did.receiving (h : Did gone entry c e c' em) (hr : c'.receiving = true) :
    c.receiving = true := by
  cases h with
  | join hs ht hso =>
    rename_i first second
    cases hsc : sendsClose first second <;> simp [Channel.receiving, hsc] at hr
  | _ => simp_all [Channel.receiving]

/-- An ended half stays ended. -/
theorem Did.toTunnel_ended (h : Did gone entry c e c' em) {r : RelayEnd}
    (hr : c.toTunnel = .ended r) : c'.toTunnel = .ended r := by
  cases h <;> simp_all

theorem Did.toSocket_ended (h : Did gone entry c e c' em) {r : RelayEnd}
    (hr : c.toSocket = .ended r) : c'.toSocket = .ended r := by
  cases h <;> simp_all

/-- A task that has stopped listening writes nothing more. -/
theorem Did.written_deaf (h : Did gone entry c e c' em) (hr : c.receiving = false) :
    c'.written = c.written := by
  cases h <;> simp_all [Channel.receiving]

theorem Did.written_ended (h : Did gone entry c e c' em) {x : RelayEnd}
    (hx : c.toSocket = .ended x) : c'.written = c.written := by
  cases h <;> simp_all

/-- The task only takes from its inbound queue. -/
theorem Did.inbound_sub (h : Did gone entry c e c' em) {i : Inbound} (hi : i ∈ c'.inbound) :
    i ∈ c.inbound := by
  cases h <;> simp_all

/-- The only way to end with `PeerClosed` is to take a `close` with nothing left before it. -/
theorem Did.peerClosed (h : Did gone entry c e c' em) (hp : c'.toSocket = .ended .peerClosed) :
    c.toSocket = .ended .peerClosed ∨
      (c.receiving = true ∧ c.toSocket = .next ∧ c.pending = [] ∧ c'.written = c.written ∧
        ∃ rest, c.inbound = .close :: rest) := by
  cases h <;> simp_all [Channel.receiving]

/-- The controller's task starts with its `open`, or not at all. -/
theorem Did.of_opening (h : Did gone entry c e c' em) (hs : c.stage = .opening) :
    (e = .sendOpen ∧ c' = { c with stage := .running } ∧
        em = .onOrdered (.open c.id c.host c.port channelWindow c.serial)) ∨
      (e = .sendOpenFails ∧ c' = { c with stage := .leaving } ∧ em = .nothing) := by
  cases h <;> simp_all

/-- What one step puts on the ordered sink. -/
theorem Did.ordered (h : Did gone entry c e c' em) :
    em.ordered = [] ∨ (∃ bs, em.ordered = [.data c.id bs] ∧ c.stage = .running) ∨
      (em.ordered = [.close c.id] ∧ c'.finished = true) ∨
      (c.stage = .connecting ∧ c'.finished = true ∧
        ∃ message, em.ordered = [.opened c.id false message 0]) ∨
      (c.stage = .opening ∧ c'.stage = .running ∧
        em.ordered = [.open c.id c.host c.port channelWindow c.serial]) ∨
      (c.stage = .granted ∧ c'.stage = .running ∧
        em.ordered = [.opened c.id true "" channelWindow]) := by
  cases h <;> simp_all [Emit.nothing, Emit.onOrdered, Emit.onControl, Channel.finished]

theorem Did.ordered_not_update (h : Did gone entry c e c' em) {f : Frame} (hf : f ∈ em.ordered) :
    f.isUpdate = false := by
  rcases h.ordered with h | ⟨bs, h, -⟩ | ⟨h, -⟩ | ⟨-, -, m, h⟩ | ⟨-, -, h⟩ | ⟨-, -, h⟩ <;>
    simp_all [Frame.isUpdate]

/-- What one step puts on the control sink. -/
theorem Did.control (h : Did gone entry c e c' em) :
    em.control = [] ∨ ∃ n, em.control = [.windowUpdate c.id n] := by
  cases h <;> simp [Emit.nothing, Emit.onOrdered, Emit.onControl]

/-- A finished task reads and emits nothing more. -/
theorem Did.finished (h : Did gone entry c e c' em) (hf : c.finished = true) :
    c'.finished = true ∧ em = .nothing ∧ c'.read = c.read ∧ c'.outgoing = c.outgoing := by
  cases h <;> simp_all [Channel.finished, Channel.outgoing]

end Facts

end Channel

end FontisRemote.PortForward
