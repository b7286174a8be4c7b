import FontisRemote.Lib.Run

/-!
# The first clipboard of a session

When a session is connected the client sends what is on its clipboard. The read runs beside the session's loop and
its result comes in over the same queue as the changes that the clipboard's listener reports, so that it can be
older than what was sent, or than what the host sent, by the time the loop takes it. `io_loop.rs` sends it only while
it is still pending and the listener has reported nothing since before it was read, and reads again otherwise.

The contents of the clipboard are numbered as they are set. Of the current one it is kept whether a change report
would send it (`live`: it is not empty and no update has put it there) and whether a read by force would (`whole`).
The system tells the listener of a change some time after it.
-/

namespace FontisRemote.Clipboard

open FontisRemote.Lib

/-- What the session's loop takes from its queue. -/
inductive SessionData
  /-- A change report, with the content that was read. -/
  | message (v : Nat)
  | initialClipboard (generation : Nat) (msg : Option Nat)
deriving DecidableEq, Repr

/-- The thread that reads the clipboard when it has changed. -/
inductive ChangeHandler
  | idle
  /-- It has taken a report. -/
  | reading
  | sending (v : Nat)
deriving DecidableEq, Repr

/-- The read of `start_initial_clipboard_sync`. -/
inductive InitialRead
  | none
  /-- On Linux it waits for the listener first. -/
  | starting
  | reading (generation : Nat)
  | posting (generation : Nat) (msg : Option Nat)
deriving DecidableEq, Repr

structure ClientClipboard where
  version : Nat := 0
  live : Bool
  whole : Bool
  /-- The last content that was set before the listener was told of a change. -/
  notified : Nat := 0
  /-- `CLIPBOARD_GENERATION` -/
  generation : Nat := 0
  /-- Reports that the handler has not taken. -/
  changed : Nat := 0
  handler : ChangeHandler := .idle
  queue : List SessionData := []
  textRequired : Bool
  syncInitClipboard : Bool
  connected : Bool := false
  /-- The content that was there when the session was connected. -/
  joined : Nat := 0
  /-- `initial_clipboard_pending` -/
  pending : Bool := false
  reader : InitialRead := .none
  /-- What was sent to the host, newest first. -/
  wire : List Nat := []

inductive ClientEvent
  | set (live whole : Bool)
  /-- `on_clipboard_change` -/
  | change
  /-- `on_clipboard_ready` -/
  | ready
  | take
  | read (ok : Bool)
  | send
  /-- The first `PeerInfo`. -/
  | connect
  /-- The listener is ready, or has not become so in time. -/
  | wait (ready : Bool)
  | snapshot (ok : Bool)
  | post
  /-- The loop takes the next of its queue. -/
  | next
  /-- A clipboard of the host's is taken. -/
  | hostClipboard
  | require (textRequired : Bool)
deriving DecidableEq, Repr

namespace ClientClipboard

variable (s : ClientClipboard)

def startInitialClipboardSync : ClientClipboard := { s with pending := true, reader := .starting }

/-- The loop's arm for what it took. -/
def handle : SessionData → ClientClipboard
  | .message v => if s.connected then { s with pending := false, wire := v :: s.wire } else s
  | .initialClipboard generation msg =>
    if !s.pending then s
    else if !s.textRequired then { s with pending := false }
    else if generation ≠ s.generation then startInitialClipboardSync { s with pending := false }
    else
      match msg with
      | some v => { s with pending := false, wire := v :: s.wire }
      | none => { s with pending := false }

def step : ClientEvent → Option ClientClipboard
  | .set live whole => some { s with version := s.version + 1, live := live, whole := whole }
  | .change => some { s with generation := s.generation + 1, changed := s.changed + 1, notified := s.version }
  | .ready => some { s with generation := s.generation + 1 }
  | .take =>
    match s.handler, s.changed with
    | .idle, n + 1 => some { s with changed := n, handler := .reading }
    | _, _ => none
  | .read ok =>
    match s.handler with
    | .reading =>
      some { s with handler := if s.textRequired && ok && s.live then .sending s.version else .idle }
    | _ => none
  | .send =>
    match s.handler with
    | .sending v => some { s with queue := s.queue ++ [.message v], handler := .idle }
    | _ => none
  | .connect =>
    if s.connected then none
    else
      let t := { s with connected := true, joined := s.version }
      some (if s.textRequired && s.syncInitClipboard then t.startInitialClipboardSync else t)
  | .wait ready =>
    match s.reader with
    | .starting => some { s with reader := if ready then .reading s.generation else .posting s.generation none }
    | _ => none
  | .snapshot ok =>
    match s.reader with
    | .reading generation =>
      some { s with
        reader := .posting generation (if s.textRequired && ok && s.whole then some s.version else none) }
    | _ => none
  | .post =>
    match s.reader with
    | .posting generation msg =>
      some { s with queue := s.queue ++ [.initialClipboard generation msg], reader := .none }
    | _ => none
  | .next =>
    match s.queue with
    | data :: queue => some (handle { s with queue := queue } data)
    | [] => none
  | .hostClipboard => some { s with pending := false }
  | .require textRequired => some { s with textRequired := textRequired }

def Init (s : ClientClipboard) : Prop :=
  ∃ live whole textRequired syncInitClipboard,
    s = { live := live, whole := whole, textRequired := textRequired, syncInitClipboard := syncInitClipboard }

end ClientClipboard

/-! ## One snapshot at a time, and no old one -/

def SessionData.isInitial : SessionData → Bool
  | .message _ => false
  | .initialClipboard _ _ => true

namespace ClientClipboard

variable {s s' : ClientClipboard}

/-- A snapshot on its way to the loop: its generation and what was read. -/
def Snapshot (s : ClientClipboard) (generation : Nat) (msg : Option Nat) : Prop :=
  s.reader = .posting generation msg ∨ .initialClipboard generation msg ∈ s.queue

/-- How many reads are going on or on their way. -/
def snapshots (s : ClientClipboard) : Nat :=
  s.queue.countP SessionData.isInitial + (if s.reader = .none then 0 else 1)

structure Orderly (s : ClientClipboard) : Prop where
  notified : s.notified ≤ s.version
  connected : s.connected = false → s.snapshots = 0
  one : s.snapshots ≤ 1
  reading : ∀ generation, s.reader = .reading generation → generation ≤ s.generation
  snapshot : ∀ generation msg, s.Snapshot generation msg → generation ≤ s.generation
  current : ∀ generation v, s.Snapshot generation (some v) → v ≤ s.version ∧
    (s.pending = true → generation = s.generation → s.notified ≤ v)

theorem reader_of_snapshots (h : s.snapshots = 0) : s.reader = .none := by
  unfold snapshots at h
  by_contra hr
  rw [if_neg hr] at h
  omega

theorem not_snapshot (h : s.snapshots = 0) (generation : Nat) (msg : Option Nat) : ¬ s.Snapshot generation msg := by
  rintro (hr | hq)
  · rw [reader_of_snapshots h] at hr
    cases hr
  · have hcount : 0 < s.queue.countP SessionData.isInitial := List.countP_pos_iff.2 ⟨_, hq, rfl⟩
    unfold snapshots at h
    omega

/-- What a step keeps that touches neither the queue nor the reader and lets nothing become pending. -/
theorem Orderly.of_kept (h : s.Orderly) (hqueue : s'.queue = s.queue) (hreader : s'.reader = s.reader)
    (hconnected : s'.connected = s.connected) (hgeneration : s.generation ≤ s'.generation)
    (hversion : s.version ≤ s'.version) (hnotified : s'.notified ≤ s'.version)
    (hpending : s'.pending = true → s.pending = true)
    (hsame : s'.generation = s.generation → s'.notified = s.notified) : s'.Orderly := by
  have hsnapshot : ∀ {generation msg}, s'.Snapshot generation msg ↔ s.Snapshot generation msg := by
    intro generation msg
    unfold Snapshot
    rw [hqueue, hreader]
  have hcount : s'.snapshots = s.snapshots := by
    unfold snapshots
    rw [hqueue, hreader]
  refine ⟨hnotified, fun hc => ?_, hcount.trans_le h.one, fun g hg => ?_, fun g msg hg => ?_, fun g v hg => ?_⟩
  · rw [hcount]
    exact h.connected (hconnected ▸ hc)
  · exact (h.reading g (hreader ▸ hg)).trans hgeneration
  · exact (h.snapshot g msg (hsnapshot.1 hg)).trans hgeneration
  · obtain ⟨hv, hcur⟩ := h.current g v (hsnapshot.1 hg)
    refine ⟨hv.trans hversion, fun hp heq => ?_⟩
    have hle := h.snapshot g _ (hsnapshot.1 hg)
    rw [hsame (by omega)]
    exact hcur (hpending hp) (by omega)

/-- A step of the read, or of the queue's writers: a snapshot that is new was read now. -/
theorem Orderly.moved (h : s.Orderly) (hgeneration : s'.generation = s.generation) (hversion : s'.version = s.version)
    (hnotified : s'.notified = s.notified) (hpending : s'.pending = s.pending) (hconnected : s'.connected = s.connected)
    (hcount : s'.snapshots = s.snapshots) (hreading : ∀ g, s'.reader = .reading g → g ≤ s.generation)
    (hsnapshot : ∀ g msg, s'.Snapshot g msg →
      s.Snapshot g msg ∨ g ≤ s.generation ∧ ∀ v, msg = some v → v = s.version) : s'.Orderly := by
  refine ⟨?_, fun hc => ?_, hcount.trans_le h.one, fun g hg => (hreading g hg).trans_eq hgeneration.symm, ?_, ?_⟩
  · rw [hnotified, hversion]
    exact h.notified
  · rw [hcount]
    exact h.connected (hconnected ▸ hc)
  · intro g msg hg
    rw [hgeneration]
    exact (hsnapshot g msg hg).elim (h.snapshot g msg) And.left
  · intro g v hg
    rw [hversion, hpending, hgeneration, hnotified]
    rcases hsnapshot g _ hg with hold | ⟨-, hnew⟩
    · exact h.current g v hold
    · rw [hnew v rfl]
      exact ⟨le_rfl, fun _ _ => h.notified⟩

theorem orderly_start (hnone : s.snapshots = 0) (hnotified : s.notified ≤ s.version) (hc : s.connected = true) :
    s.startInitialClipboardSync.Orderly := by
  have hqueue : s.queue.countP SessionData.isInitial = 0 := by
    unfold snapshots at hnone
    omega
  have hno : ∀ g msg, ¬ s.startInitialClipboardSync.Snapshot g msg := by
    rintro g msg (hr | hq)
    · cases hr
    · exact not_snapshot hnone g msg (.inr hq)
  refine ⟨hnotified, fun h => ?_, ?_, fun g hg => (by cases hg), fun g msg hg => absurd hg (hno g msg),
    fun g v hg => absurd hg (hno g _)⟩
  · rw [show s.startInitialClipboardSync.connected = s.connected from rfl, hc] at h
    cases h
  · show s.queue.countP SessionData.isInitial + _ ≤ 1
    rw [hqueue]
    exact (Nat.zero_add _).trans_le (by split <;> omega)

/-- Taking a change report off the queue, or dropping a snapshot that is not sent. -/
theorem Orderly.dropped {data : SessionData} {queue : List SessionData} (h : s.Orderly) (hq : s.queue = data :: queue) :
    Orderly { s with queue := queue } := by
  have hsnapshot : ∀ {generation msg}, Snapshot { s with queue := queue } generation msg → s.Snapshot generation msg := by
    rintro generation msg (hr | hm)
    · exact .inl hr
    · exact .inr (hq ▸ List.mem_cons_of_mem _ hm)
  have hcount : snapshots { s with queue := queue } ≤ s.snapshots := by
    unfold snapshots
    rw [hq]
    exact Nat.add_le_add_right (List.Sublist.countP_le (List.sublist_cons_self ..)) _
  exact ⟨h.notified, fun hc => Nat.le_zero.1 (hcount.trans_eq (h.connected hc)), hcount.trans h.one, h.reading,
    fun g msg hg => h.snapshot g msg (hsnapshot hg), fun g v hg => h.current g v (hsnapshot hg)⟩

theorem orderly_handle {data : SessionData} {queue : List SessionData} (h : s.Orderly) (hq : s.queue = data :: queue) :
    (handle { s with queue := queue } data).Orderly := by
  have hd := h.dropped hq
  cases data with
  | message v =>
    unfold handle
    dsimp only
    split
    · exact hd.of_kept rfl rfl rfl le_rfl le_rfl hd.notified (fun hp => by cases hp) fun _ => rfl
    · exact hd
  | initialClipboard generation msg =>
    have hcleared : Orderly { s with queue := queue, pending := false } :=
      hd.of_kept rfl rfl rfl le_rfl le_rfl hd.notified (fun hp => by cases hp) fun _ => rfl
    have hone := h.one
    unfold snapshots at hone
    rw [hq, List.countP_cons_of_pos rfl] at hone
    have hnone : snapshots { s with queue := queue, pending := false } = 0 := by
      unfold snapshots
      show queue.countP SessionData.isInitial + (if s.reader = .none then 0 else 1) = 0
      omega
    unfold handle
    dsimp only
    split
    · exact hd
    · split
      · exact hcleared
      · split
        · refine orderly_start hnone h.notified ?_
          -- A snapshot is on its way only where the session is connected.
          by_contra hc
          have h0 := h.connected (Bool.eq_false_iff.2 hc)
          exact not_snapshot h0 generation msg (.inr (hq ▸ List.mem_cons_self ..))
        · cases msg with
          | some v => exact hcleared.of_kept rfl rfl rfl le_rfl le_rfl hcleared.notified id fun _ => rfl
          | none => exact hcleared

theorem orderly_step {e : ClientEvent} (h : s.Orderly) (hstep : s.step e = some s') : s'.Orderly := by
  cases e with
  | set live whole =>
    cases hstep
    exact h.of_kept rfl rfl rfl le_rfl (Nat.le_succ _) (h.notified.trans (Nat.le_succ _)) id fun _ => rfl
  | change =>
    cases hstep
    refine h.of_kept rfl rfl rfl (Nat.le_succ _) le_rfl le_rfl id fun heq => ?_
    exact absurd heq (Nat.succ_ne_self _)
  | ready =>
    cases hstep
    exact h.of_kept rfl rfl rfl (Nat.le_succ _) le_rfl h.notified id fun _ => rfl
  | take =>
    simp only [step] at hstep
    split at hstep
    · cases hstep
      exact h.of_kept rfl rfl rfl le_rfl le_rfl h.notified id fun _ => rfl
    · cases hstep
  | read ok =>
    simp only [step] at hstep
    split at hstep
    · cases hstep
      exact h.of_kept rfl rfl rfl le_rfl le_rfl h.notified id fun _ => rfl
    · cases hstep
  | send =>
    simp only [step] at hstep
    split at hstep
    · rename_i v _
      cases hstep
      refine h.moved rfl rfl rfl rfl rfl ?_ h.reading ?_
      · simp [snapshots, SessionData.isInitial]
      · rintro g msg (hr | hq)
        · exact .inl (.inl hr)
        · rcases List.mem_append.1 hq with hq | hq
          · exact .inl (.inr hq)
          · cases List.mem_singleton.1 hq
    · cases hstep
  | connect =>
    simp only [step] at hstep
    split at hstep
    · cases hstep
    · rename_i hc
      cases hstep
      have hnone := h.connected (Bool.eq_false_iff.2 hc)
      split
      · exact orderly_start hnone h.notified rfl
      · exact ⟨h.notified, fun hc => (by cases hc), h.one, h.reading, h.snapshot, h.current⟩
  | wait ready =>
    simp only [step] at hstep
    split at hstep
    · rename_i hr
      cases hstep
      cases ready with
      | true =>
        refine h.moved rfl rfl rfl rfl rfl (by simp [snapshots, hr]) ?_ ?_
        · intro g hg
          cases hg
          exact le_rfl
        · rintro g msg (hg | hq)
          · cases hg
          · exact .inl (.inr hq)
      | false =>
        refine h.moved rfl rfl rfl rfl rfl (by simp [snapshots, hr]) (fun g hg => by cases hg) ?_
        rintro g msg (hg | hq)
        · cases hg
          exact .inr ⟨le_rfl, fun v hv => by cases hv⟩
        · exact .inl (.inr hq)
    · cases hstep
  | snapshot ok =>
    simp only [step] at hstep
    split at hstep
    · rename_i generation hr
      cases hstep
      refine h.moved rfl rfl rfl rfl rfl (by simp [snapshots, hr]) (fun g hg => by cases hg) ?_
      rintro g msg (hg | hq)
      · cases hg
        refine .inr ⟨h.reading _ hr, fun v hv => ?_⟩
        split at hv
        · exact (Option.some.inj hv).symm
        · cases hv
      · exact .inl (.inr hq)
    · cases hstep
  | post =>
    simp only [step] at hstep
    split at hstep
    · rename_i generation msg hr
      cases hstep
      refine h.moved rfl rfl rfl rfl rfl ?_ (fun g hg => by cases hg) ?_
      · simp [snapshots, hr, SessionData.isInitial]
      · rintro g m (hg | hq)
        · cases hg
        · rcases List.mem_append.1 hq with hq | hq
          · exact .inl (.inr hq)
          · cases List.mem_singleton.1 hq
            exact .inl (.inl hr)
    · cases hstep
  | next =>
    simp only [step] at hstep
    split at hstep
    · rename_i data queue hq
      cases hstep
      exact orderly_handle h hq
    · cases hstep
  | hostClipboard =>
    cases hstep
    exact h.of_kept rfl rfl rfl le_rfl le_rfl h.notified (fun hp => by cases hp) fun _ => rfl
  | require textRequired =>
    cases hstep
    exact h.of_kept rfl rfl rfl le_rfl le_rfl h.notified id fun _ => rfl

theorem orderly_of_reachable (h : Reachable Init step s) : s.Orderly := by
  refine Reachable.invariant ?_ (fun s e s' hs hstep => orderly_step hs hstep) h
  rintro s ⟨live, whole, textRequired, syncInitClipboard, rfl⟩
  refine ⟨le_rfl, fun _ => rfl, Nat.zero_le _, fun g hg => (by cases hg), ?_, ?_⟩
  · rintro g msg (hr | hq)
    · cases hr
    · cases hq
  · rintro g v (hr | hq)
    · cases hr
    · cases hq

/-! ## The newest content goes out last -/

def SessionData.live : SessionData → Option Nat
  | .message v => some v
  | .initialClipboard _ _ => none

/-- What the change reports have brought to the queue. -/
def reports (s : ClientClipboard) : List Nat := s.queue.filterMap SessionData.live

/-- The current content was sent last, or is the last that will be, or is still to be reported. -/
inductive Ahead (s : ClientClipboard) : Prop
  | unnoticed : s.notified < s.version → Ahead s
  | reported : 0 < s.changed → Ahead s
  | reading : s.handler = .reading → Ahead s
  | read : s.handler = .sending s.version → Ahead s
  | queued (old : List Nat) : s.handler = .idle → s.reports = old ++ [s.version] → Ahead s
  | sent (rest : List Nat) : s.handler = .idle → s.reports = [] → s.wire = s.version :: rest → Ahead s

/-- The loop's arms write only what they are about. -/
theorem handle_fields (data : SessionData) : (handle s data).connected = s.connected ∧ (handle s data).joined = s.joined ∧
    (handle s data).version = s.version ∧ (handle s data).live = s.live ∧
    (handle s data).textRequired = s.textRequired := by
  cases data with
  | message v =>
    unfold handle
    dsimp only
    split <;> exact ⟨rfl, rfl, rfl, rfl, rfl⟩
  | initialClipboard generation msg =>
    unfold handle
    dsimp only
    split
    · exact ⟨rfl, rfl, rfl, rfl, rfl⟩
    · split
      · exact ⟨rfl, rfl, rfl, rfl, rfl⟩
      · split
        · exact ⟨rfl, rfl, rfl, rfl, rfl⟩
        · cases msg <;> exact ⟨rfl, rfl, rfl, rfl, rfl⟩

/-- A snapshot is sent only if all that was reported is in it. -/
theorem notified_le_of_sent (h : s.Orderly) {generation v : Nat} {queue : List SessionData}
    (hq : s.queue = .initialClipboard generation (some v) :: queue)
    (hsent : (handle { s with queue := queue } (.initialClipboard generation (some v))).wire ≠ s.wire) :
    s.notified ≤ v ∧ v ≤ s.version := by
  obtain ⟨hle, hcur⟩ := h.current generation v (.inr (hq ▸ List.mem_cons_self ..))
  refine ⟨?_, hle⟩
  unfold handle at hsent
  dsimp only at hsent
  split at hsent
  · exact absurd rfl hsent
  · rename_i hp
    split at hsent
    · exact absurd rfl hsent
    · split at hsent
      · exact absurd rfl hsent
      · rename_i heq
        exact hcur (by simpa using hp) (not_not.1 heq)

/-- The step keeps what `Ahead` speaks of, or makes the content one that was not noticed yet. -/
theorem Ahead.of_kept (h : s.Ahead) (hversion : s'.version = s.version) (hnotified : s'.notified = s.notified)
    (hchanged : s.changed ≤ s'.changed) (hhandler : s'.handler = s.handler) (hqueue : s'.reports = s.reports)
    (hwire : s'.wire = s.wire) : s'.Ahead := by
  cases h with
  | unnoticed h => exact .unnoticed (by rw [hversion, hnotified]; exact h)
  | reported h => exact .reported (h.trans_le hchanged)
  | reading h => exact .reading (hhandler.trans h)
  | read h => exact .read (by rw [hhandler, hversion]; exact h)
  | queued old hidle h => exact .queued old (hhandler.trans hidle) (by rw [hqueue, hversion]; exact h)
  | sent rest hidle hnil h => exact .sent rest (hhandler.trans hidle) (hqueue.trans hnil) (by rw [hwire, hversion]; exact h)

theorem ahead_message {v : Nat} {queue : List SessionData} (hq : s.queue = .message v :: queue)
    (hc : s.connected = true) (h : s.Ahead) : (handle { s with queue := queue } (.message v)).Ahead := by
  have hreports : s.reports = v :: queue.filterMap SessionData.live := by
    unfold reports
    rw [hq]
    rfl
  unfold handle
  dsimp only
  rw [if_pos hc]
  cases h with
  | unnoticed h => exact .unnoticed h
  | reported h => exact .reported h
  | reading h => exact .reading h
  | read h => exact .read h
  | queued old hidle h =>
    rw [hreports] at h
    cases old with
    | nil =>
      obtain ⟨rfl, hnil⟩ := List.cons.inj h
      exact .sent s.wire hidle hnil rfl
    | cons w old => exact .queued old hidle (List.cons.inj h).2
  | sent rest hidle hnil h =>
    rw [hreports] at hnil
    cases hnil

theorem ahead_initial (hs : s.Orderly) {generation : Nat} {msg : Option Nat} {queue : List SessionData}
    (hq : s.queue = .initialClipboard generation msg :: queue) (h : s.Ahead) :
    (handle { s with queue := queue } (.initialClipboard generation msg)).Ahead := by
  have hreports : s.reports = queue.filterMap SessionData.live := by
    unfold reports
    rw [hq]
    rfl
  by_cases hwire : (handle { s with queue := queue } (.initialClipboard generation msg)).wire = s.wire
  · have hkept : ∀ {t : ClientClipboard}, t.version = s.version → t.notified = s.notified → t.changed = s.changed →
        t.handler = s.handler → t.queue = queue → t.wire = s.wire → t.Ahead := by
      intro t hv hn hc hh hqueue hw
      refine h.of_kept hv hn hc.ge hh ?_ hw
      rw [hreports, reports, hqueue]
    unfold handle at hwire ⊢
    dsimp only at hwire ⊢
    split
    · exact hkept rfl rfl rfl rfl rfl rfl
    · split
      · exact hkept rfl rfl rfl rfl rfl rfl
      · split
        · exact hkept rfl rfl rfl rfl rfl rfl
        · cases msg with
          | none => exact hkept rfl rfl rfl rfl rfl rfl
          | some v =>
            rename_i hp hr heq
            rw [if_neg hp, if_neg hr, if_neg heq] at hwire
            exact absurd hwire (List.cons_ne_self v s.wire)
  · -- It was sent: it is the current content, or the current one is not reported yet.
    cases msg with
    | none =>
      refine absurd ?_ hwire
      unfold handle
      dsimp only
      split
      · rfl
      · split
        · rfl
        · split <;> rfl
    | some v =>
      obtain ⟨hle, hv⟩ := notified_le_of_sent hs hq hwire
      have hsent : handle { s with queue := queue } (.initialClipboard generation (some v)) =
          { s with queue := queue, pending := false, wire := v :: s.wire } := by
        unfold handle at hwire ⊢
        dsimp only at hwire ⊢
        split at hwire
        · exact absurd rfl hwire
        · split at hwire
          · exact absurd rfl hwire
          · split at hwire
            · exact absurd rfl hwire
            · rename_i hp hr heq
              rw [if_neg hp, if_neg hr, if_neg heq]
      rw [hsent]
      cases h with
      | unnoticed h => exact .unnoticed h
      | reported h => exact .reported h
      | reading h => exact .reading h
      | read h => exact .read h
      | queued old hidle h => exact .queued old hidle (hreports.symm.trans h)
      | sent rest hidle hnil h =>
        rcases (hle.trans hv).lt_or_eq with hlt | heq
        · exact .unnoticed hlt
        · refine .sent s.wire hidle (hreports.symm.trans hnil) ?_
          rw [show v = s.version by omega]

/-- A step where the reads succeed and the text is wanted. -/
theorem ahead_step {e : ClientEvent} (hs : s.Orderly) (hrequired : s.textRequired = true)
    (hread : e ≠ .read false) (hstep : s.step e = some s')
    (h : s.connected = true → s.joined < s.version → s.live = true → s.Ahead)
    (hc : s'.connected = true) (hjoined : s'.joined < s'.version) (hlive : s'.live = true) : s'.Ahead := by
  cases e with
  | set live whole =>
    cases hstep
    exact .unnoticed (Nat.lt_succ_of_le hs.notified)
  | change =>
    cases hstep
    exact .reported (Nat.succ_pos _)
  | ready =>
    cases hstep
    exact (h hc hjoined hlive).of_kept rfl rfl le_rfl rfl rfl rfl
  | take =>
    simp only [step] at hstep
    split at hstep
    · cases hstep
      exact .reading rfl
    · cases hstep
  | read ok =>
    have hok : ok = true := by
      cases ok with
      | true => rfl
      | false => exact absurd rfl hread
    simp only [step] at hstep
    split at hstep
    · cases hstep
      have hl : s.live = true := hlive
      refine .read ?_
      simp [hrequired, hok, hl]
    · cases hstep
  | send =>
    simp only [step] at hstep
    split at hstep
    · rename_i v hv
      cases hstep
      have hreports : reports { s with queue := s.queue ++ [.message v], handler := .idle } = s.reports ++ [v] := by
        unfold reports
        rw [List.filterMap_append]
        rfl
      cases h hc hjoined hlive with
      | unnoticed h => exact .unnoticed h
      | reported h => exact .reported h
      | reading h => rw [hv] at h; cases h
      | read h =>
        rw [hv] at h
        cases h
        exact .queued s.reports rfl hreports
      | queued old hidle h => rw [hv] at hidle; cases hidle
      | sent rest hidle hnil h => rw [hv] at hidle; cases hidle
    · cases hstep
  | connect =>
    simp only [step] at hstep
    split at hstep
    · cases hstep
    · cases hstep
      split at hjoined <;> exact absurd hjoined (lt_irrefl _)
  | wait ready =>
    simp only [step] at hstep
    split at hstep
    · cases hstep
      exact (h hc hjoined hlive).of_kept rfl rfl le_rfl rfl rfl rfl
    · cases hstep
  | snapshot ok =>
    simp only [step] at hstep
    split at hstep
    · cases hstep
      exact (h hc hjoined hlive).of_kept rfl rfl le_rfl rfl rfl rfl
    · cases hstep
  | post =>
    simp only [step] at hstep
    split at hstep
    · cases hstep
      refine (h hc hjoined hlive).of_kept rfl rfl le_rfl rfl ?_ rfl
      unfold reports
      rw [List.filterMap_append]
      exact List.append_nil _
    · cases hstep
  | next =>
    simp only [step] at hstep
    split at hstep
    · rename_i data queue hq
      cases hstep
      have hkept := handle_fields (s := { s with queue := queue }) data
      rw [hkept.1] at hc
      rw [hkept.2.1, hkept.2.2.1] at hjoined
      rw [hkept.2.2.2.1] at hlive
      cases data with
      | message v => exact ahead_message hq hc (h hc hjoined hlive)
      | initialClipboard generation msg => exact ahead_initial hs hq (h hc hjoined hlive)
    · cases hstep
  | hostClipboard =>
    cases hstep
    exact (h hc hjoined hlive).of_kept rfl rfl le_rfl rfl rfl rfl
  | require textRequired =>
    cases hstep
    exact (h hc hjoined hlive).of_kept rfl rfl le_rfl rfl rfl rfl

theorem textRequired_step {e : ClientEvent} (he : e ≠ .require false) (hstep : s.step e = some s')
    (h : s.textRequired = true) : s'.textRequired = true := by
  cases e with
  | require textRequired =>
    cases hstep
    cases textRequired with
    | true => rfl
    | false => exact absurd rfl he
  | next =>
    simp only [step] at hstep
    split at hstep
    · rename_i data queue hq
      cases hstep
      exact (handle_fields (s := { s with queue := queue }) data).2.2.2.2.trans h
    · cases hstep
  | connect =>
    simp only [step] at hstep
    split at hstep
    · cases hstep
    · cases hstep
      split <;> exact h
  | take | read | send | wait | snapshot | post =>
    simp only [step] at hstep
    split at hstep
    · cases hstep
      exact h
    · cases hstep
  | _ =>
    cases hstep
    exact h

end ClientClipboard

section Runs

variable {h : List (ClientClipboard × ClientEvent)} {s : ClientClipboard}

/-- The first clipboard of a session never takes the place of a newer one. In every run of the client, its listener and
the read beside the loop: a snapshot that is sent holds all that was reported when it is sent; and once nothing is left
to report, to read or to take, where the reads go well and the text is wanted throughout, what a user copied since the
session was connected is what the host was sent last. -/
theorem initial_clipboard_sync
    (hx : Exec (fun s => ClientClipboard.Init s ∧ s.textRequired = true) ClientClipboard.step h s) :
    (∀ p ∈ h, ∀ generation v queue, p.1.queue = .initialClipboard generation (some v) :: queue → p.2 = .next →
      (ClientClipboard.handle { p.1 with queue := queue } (.initialClipboard generation (some v))).wire ≠ p.1.wire →
      p.1.notified ≤ v ∧ v ≤ p.1.version) ∧
    ((∀ p ∈ h, p.2 ≠ .read false ∧ p.2 ≠ .require false) → s.connected = true → s.joined < s.version →
      s.live = true → s.notified = s.version → s.changed = 0 → s.handler = .idle → s.queue = [] →
      s.wire.head? = some s.version) := by
  have horderly : ∀ {h s}, Exec (fun s => ClientClipboard.Init s ∧ s.textRequired = true) ClientClipboard.step h s →
      s.Orderly := by
    intro h s hx
    refine ClientClipboard.orderly_of_reachable ⟨h, ?_⟩
    induction hx with
    | start hi => exact .start hi.1
    | snoc _ hstep ih => exact ih.snoc hstep
  constructor
  · intro p hp generation v queue hq _ hsent
    obtain ⟨older, hpast, -⟩ := hx.mem hp
    exact ClientClipboard.notified_le_of_sent (horderly hpast) hq hsent
  · intro hgood hc hjoined hlive hnotified hchanged hidle hqueue
    have hahead : s.textRequired = true ∧ (s.connected = true → s.joined < s.version → s.live = true → s.Ahead) := by
      clear hc hjoined hlive hnotified hchanged hidle hqueue
      induction hx with
      | start hi =>
        obtain ⟨⟨live, whole, textRequired, syncInitClipboard, rfl⟩, hrequired⟩ := hi
        exact ⟨hrequired, fun hc => by cases hc⟩
      | snoc hx hstep ih =>
        obtain ⟨hrequired, hahead⟩ := ih fun p hp => hgood p (List.mem_cons_of_mem _ hp)
        obtain ⟨hread, hrequire⟩ := hgood _ (List.mem_cons_self ..)
        exact ⟨ClientClipboard.textRequired_step hrequire hstep hrequired,
          ClientClipboard.ahead_step (horderly hx) hrequired hread hstep hahead⟩
    cases hahead.2 hc hjoined hlive with
    | unnoticed h => exact absurd h (by omega)
    | reported h => exact absurd h (by omega)
    | reading h => rw [hidle] at h; cases h
    | read h => rw [hidle] at h; cases h
    | queued old _ h =>
      have hnil : s.reports = [] := by
        unfold ClientClipboard.reports
        rw [hqueue]
        rfl
      rw [hnil] at h
      exact absurd h.symm (by simp)
    | sent rest _ _ h =>
      rw [h]
      rfl

/-- Something is copied after the first clipboard was read and before the loop takes it. -/
def overtaken : List ClientEvent :=
  [.connect, .wait true, .snapshot true, .set true true, .change, .take, .read true, .send, .post, .next, .next]

theorem initial_clipboard_sync_overtaken : ∃ r,
    trace ClientClipboard.step { live := true, whole := true, textRequired := true, syncInitClipboard := true }
      overtaken = some r ∧ r.2.wire.head? = some r.2.version := by
  obtain ⟨r, hr⟩ : ∃ r, trace ClientClipboard.step
      { live := true, whole := true, textRequired := true, syncInitClipboard := true } overtaken = some r := ⟨_, rfl⟩
  have hx : Exec (fun s => ClientClipboard.Init s ∧ s.textRequired = true) ClientClipboard.step (r.1 ++ []) r.2 :=
    Exec.trace (.start ⟨⟨_, _, _, _, rfl⟩, rfl⟩) hr
  rw [List.append_nil] at hx
  refine ⟨r, hr, (initial_clipboard_sync hx).2 ?_ ?_ ?_ ?_ ?_ ?_ ?_ ?_⟩
  · intro p hp
    have hmem := trace_events hr p hp
    have hgood : ∀ e ∈ overtaken, e ≠ .read false ∧ e ≠ .require false := by decide
    exact hgood _ hmem
  all_goals
    cases hr
    decide

end Runs

end FontisRemote.Clipboard
