import Mathlib.Data.List.Induction
import FontisRemote.Lib.Slots
import FontisRemote.Services.Cursor

/-!
# The cursor caches agree

What is filed under a handle, what is about to be sent and what a snapshot sends is the very message that
`CURSOR_SHAPES` has for that content (`Coherent`). A viewer that keeps the shapes it was sent shows the cursor
of the last message its subscriber was given (`Served`), and that is the cursor the service shows (`Fed`).
-/

namespace FontisRemote.Services.Cursor

open FontisRemote.Lib

/-! ## The viewer -/

/-- The other side: the shapes it was sent, by id, and the cursor it shows. -/
structure Viewer where
  cache : List (UInt64 × CursorData) := []
  shown : Option CursorData := none

def Viewer.receive (v : Viewer) : Message → Viewer
  | .empty => v
  | .cursorData cd => { cache := Assoc.put v.cache cd.id (some cd), shown := some cd }
  | .cursorId id => { v with shown := Assoc.get v.cache id }

/-- A viewer that was sent these messages. -/
def viewer (sent : List Message) : Viewer := sent.foldl Viewer.receive {}

theorem viewer_concat (sent : List Message) (msg : Message) :
    viewer (sent ++ [msg]) = (viewer sent).receive msg := by
  rw [viewer, List.foldl_append]
  rfl

def Message.cursor? : Message → Option CursorData
  | .cursorData cd => some cd
  | _ => none

/-- The cursor of the last of these messages that has one. -/
def lastCursor (calls : List Message) : Option CursorData := calls.reverse.findSome? Message.cursor?

theorem lastCursor_concat (calls : List Message) (msg : Message) :
    lastCursor (calls ++ [msg]) = msg.cursor?.or (lastCursor calls) := by
  rw [lastCursor, List.reverse_append, List.findSome?_append]
  cases msg <;> rfl

theorem lastCursor_eq_none {calls : List Message} (h : ∀ msg ∈ calls, msg = .empty) :
    lastCursor calls = none := by
  refine List.findSome?_eq_none_iff.2 fun msg hmsg => ?_
  rw [h msg (List.mem_reverse.1 hmsg)]
  rfl

/-- No two shapes have one id. -/
def Distinct (calls : List Message) : Prop :=
  ∀ a b, Message.cursorData a ∈ calls → Message.cursorData b ∈ calls → a.id = b.id → a = b

/-- A subscriber that was given these messages. -/
structure Served (calls : List Message) (s : MouseCursorSub) : Prop where
  cached : ∀ id msg, Assoc.get s.cached id = some msg → msg = .cursorId id ∧
    ∃ cd, cd.id = id ∧ .cursorData cd ∈ calls ∧ .cursorData cd ∈ s.inner ∧
      Assoc.get (viewer s.inner).cache id = some cd
  first : ∀ before id after, s.inner = before ++ .cursorId id :: after →
    ∃ cd, cd.id = id ∧ .cursorData cd ∈ before
  shown : Distinct calls → (viewer s.inner).shown = lastCursor calls

theorem Served.empty {calls : List Message} {s : MouseCursorSub} (h : Served calls s) :
    Served (calls ++ [.empty]) (s.send .empty) := by
  have hviewer : viewer (s.send .empty).inner = viewer s.inner := viewer_concat s.inner .empty
  refine ⟨?_, ?_, ?_⟩
  · intro id msg hmsg
    obtain ⟨hid, cd, hcd, hcall, hsent, hcache⟩ := h.cached id msg hmsg
    refine ⟨hid, cd, hcd, List.mem_append_left _ hcall, List.mem_append_left _ hsent, ?_⟩
    rw [hviewer]
    exact hcache
  · intro before id after hsplit
    obtain ⟨rest, hrest⟩ | ⟨-, hlast⟩ := split_snoc hsplit
    · exact h.first before id rest hrest
    · cases hlast
  · intro hdistinct
    rw [hviewer, lastCursor_concat]
    exact h.shown fun a b ha hb => hdistinct a b (List.mem_append_left _ ha) (List.mem_append_left _ hb)

/-- A shape goes out as it is the first time, and as its id from then on. -/
theorem Served.cursorData {calls : List Message} {s : MouseCursorSub} (h : Served calls s) (cd : CursorData) :
    Served (calls ++ [.cursorData cd]) (s.send (.cursorData cd)) := by
  have hcall : Message.cursorData cd ∈ calls ++ [.cursorData cd] :=
    List.mem_append_right _ (List.mem_singleton_self _)
  cases hget : Assoc.get s.cached cd.id with
  | some msg =>
    obtain ⟨rfl, old, hold, hoc, hos, hocache⟩ := h.cached _ _ hget
    have hsend : s.send (.cursorData cd) = { s with inner := s.inner ++ [.cursorId cd.id] } := by
      rw [MouseCursorSub.send, hget]
    rw [hsend]
    have hviewer := viewer_concat s.inner (.cursorId cd.id)
    refine ⟨?_, ?_, ?_⟩
    · intro id msg hmsg
      obtain ⟨hid, c, hc, hcc, hcs, hcache⟩ := h.cached id msg hmsg
      refine ⟨hid, c, hc, List.mem_append_left _ hcc, List.mem_append_left _ hcs, ?_⟩
      rw [hviewer]
      exact hcache
    · intro before id after hsplit
      obtain ⟨rest, hrest⟩ | ⟨rfl, hlast⟩ := split_snoc hsplit
      · exact h.first before id rest hrest
      · cases hlast
        exact ⟨old, hold, hos⟩
    · intro hdistinct
      rw [hviewer, lastCursor_concat]
      show Assoc.get (viewer s.inner).cache cd.id = some cd
      rw [hocache, hdistinct old cd (List.mem_append_left _ hoc) hcall hold]
  | none =>
    have hsend : s.send (.cursorData cd) = ⟨s.inner ++ [.cursorData cd],
        Assoc.put s.cached cd.id (some (.cursorId cd.id))⟩ := by
      rw [MouseCursorSub.send, hget]
    rw [hsend]
    have hviewer := viewer_concat s.inner (.cursorData cd)
    refine ⟨?_, ?_, ?_⟩
    · intro id msg hmsg
      rw [Assoc.get_put] at hmsg
      show _ ∧ ∃ c, _ ∧ _ ∧ _ ∧ Assoc.get (viewer (s.inner ++ [.cursorData cd])).cache id = some c
      rw [hviewer]
      show _ ∧ ∃ c, _ ∧ _ ∧ _ ∧ Assoc.get (Assoc.put (viewer s.inner).cache cd.id (some cd)) id = some c
      rw [Assoc.get_put]
      split_ifs at hmsg ⊢ with hid
      · cases hmsg
        exact ⟨by rw [hid], cd, hid.symm, hcall, List.mem_append_right _ (List.mem_singleton_self _), rfl⟩
      · obtain ⟨hmsg, c, hc, hcc, hcs, hcache⟩ := h.cached id msg hmsg
        exact ⟨hmsg, c, hc, List.mem_append_left _ hcc, List.mem_append_left _ hcs, hcache⟩
    · intro before id after hsplit
      obtain ⟨rest, hrest⟩ | ⟨-, hlast⟩ := split_snoc hsplit
      · exact h.first before id rest hrest
      · cases hlast
    · intro _
      rw [hviewer, lastCursor_concat]
      rfl

theorem served_ofCalls {calls : List Message} (h : ∀ id, Message.cursorId id ∉ calls) :
    Served calls (MouseCursorSub.ofCalls calls) := by
  induction calls using List.reverseRecOn with
  | nil =>
    refine ⟨fun _ _ hget => ?_, fun before _ _ hsplit => ?_, fun _ => rfl⟩
    · cases hget
    · cases before <;> cases hsplit
  | append_singleton calls msg ih =>
    have hcalls : Served calls (MouseCursorSub.ofCalls calls) := ih fun id hid => h id (List.mem_append_left _ hid)
    have hsend : MouseCursorSub.ofCalls (calls ++ [msg]) = (MouseCursorSub.ofCalls calls).send msg := by
      rw [MouseCursorSub.ofCalls, List.foldl_append]
      rfl
    rw [hsend]
    cases msg with
    | empty => exact hcalls.empty
    | cursorData cd => exact hcalls.cursorData cd
    | cursorId id => exact absurd (List.mem_append_right _ (List.mem_singleton_self _)) (h id)

/-! ## Shapes -/

def Arc.size (a : Arc) : Nat := (a.msg.cursor?.map fun cd => cd.colors.length).getD 0

namespace CursorShapes

variable {s : CursorShapes}

/-- The very message kept for its content. -/
def Holds (s : CursorShapes) (a : Arc) : Prop := ∃ cd, a.msg = .cursorData cd ∧ s.get cd.id = some a

/-- Every shape is kept under its id, and `bytes` is what they hold. -/
structure Ok (s : CursorShapes) : Prop where
  keyed : ∀ id a, s.get id = some a → ∃ cd, a.msg = .cursorData cd ∧ cd.id = id
  bytes : s.bytes = (s.shapes.map fun p => p.2.size).sum

theorem Ok.holds (h : s.Ok) {id : UInt64} {a : Arc} (ha : s.get id = some a) : s.Holds a := by
  obtain ⟨cd, hcd, rfl⟩ := h.keyed id a ha
  exact ⟨cd, hcd, ha⟩

theorem ok_clear (s : CursorShapes) : s.clear.Ok := ⟨fun _ _ h => (by cases h), rfl⟩

theorem not_holds_clear (s : CursorShapes) (a : Arc) : ¬ s.clear.Holds a := by
  rintro ⟨cd, -, h⟩
  cases h

/-- What `shared_cursor_shape` does with a shape. -/
structure Shared (s : CursorShapes) (cd : CursorData) (msg : Arc) (r : CursorShapes × Arc) : Prop where
  ok : r.1.Ok
  holds : r.1.Holds r.2
  only : ∀ a, r.1.Holds a → s.Holds a ∨ a = msg
  old : ∀ a, s.Holds a → r.1.Holds a
  same : r.2 = msg ∨ s.get cd.id = some r.2

theorem Shared.shared (h : s.Ok) {cd : CursorData} {msg : Arc} (hmsg : msg.msg = .cursorData cd) :
    Shared s cd msg (s.sharedCursorShape msg) := by
  rw [sharedCursorShape, hmsg]
  show Shared s cd msg (s.keep cd msg)
  unfold keep
  split
  · rename_i kept hkept
    exact ⟨h, h.holds hkept, fun a ha => .inl ha, fun a ha => ha, .inr hkept⟩
  · rename_i hnone
    have hput : ∀ id, Assoc.get (Assoc.put s.shapes cd.id (some msg)) id =
        if id = cd.id then some msg else s.get id := fun id => Assoc.get_put ..
    refine ⟨⟨fun id a ha => ?_, ?_⟩, ⟨cd, hmsg, ?_⟩, fun a ⟨c, hc, ha⟩ => ?_,
      fun a ⟨c, hc, ha⟩ => ⟨c, hc, ?_⟩, .inl rfl⟩
    · rw [get, hput] at ha
      split_ifs at ha with hid
      · cases ha
        exact ⟨cd, hmsg, hid.symm⟩
      · exact h.keyed id a ha
    · have hsize : msg.size = cd.colors.length := by
        rw [Arc.size, hmsg]
        rfl
      show s.bytes + cd.colors.length = (((cd.id, msg) :: Assoc.erase s.shapes cd.id).map fun p => p.2.size).sum
      rw [Assoc.erase_of_get_none hnone, List.map_cons, List.sum_cons, h.bytes, hsize, Nat.add_comm]
    · rw [get, hput, if_pos rfl]
    · rw [get, hput] at ha
      split_ifs at ha with hid
      · exact .inr (Option.some.inj ha).symm
      · exact .inl ⟨c, hc, ha⟩
    · rw [get, hput, if_neg]
      · exact ha
      · intro hid
        rw [get, hid, hnone] at ha
        cases ha

/-- Past a clear only the shape being sent is kept. -/
theorem restarted (s : CursorShapes) {msg : Arc} {cd : CursorData} (hmsg : msg.msg = .cursorData cd) :
    (s.restart msg).Ok ∧ ∀ a, (s.restart msg).Holds a ↔ a = msg := by
  have hshared := Shared.shared (ok_clear s) hmsg
  have hsame : (s.clear.sharedCursorShape msg).2 = msg := hshared.same.resolve_right fun h => by cases h
  refine ⟨hshared.ok, fun a => ⟨fun ha => (hshared.only a ha).resolve_left (not_holds_clear s a), ?_⟩⟩
  rintro rfl
  have hholds := hshared.holds
  rwa [hsame] at hholds

end CursorShapes

/-- The shape as it is sent: named by its content, and compressed. -/
def CursorShape.named (b : Build) (s : CursorShape) : CursorData :=
  { s with
    id := s.contentId b.xxh3
    colors := b.compress s.colors }

namespace CursorService

variable {b : Build} {c c' : CursorService}

/-! ## The caches of the service -/

def Live (c : CursorService) (a : Arc) : Prop := a = c.state.cursorData ∨ c.shapes.Holds a

/-- The handles and the shapes go together, and no two messages have one address. -/
structure Caches (c : CursorService) : Prop where
  shapes : c.shapes.Ok
  cached : ∀ k a, Assoc.get c.state.cachedCursorData k = some a → c.shapes.Holds a
  below : ∀ a, c.Live a → a.addr < c.next
  apart : ∀ a a', c.Live a → c.Live a' → a.addr = a'.addr → a = a'

structure Coherent (c : CursorService) : Prop extends Caches c where
  sending : ∀ msg, c.pc = .sending msg → c.shapes.Holds msg
  shown : (∀ msg, c.pc ≠ .sending msg) → c.state.cursorData.msg = .empty ∨ c.shapes.Holds c.state.cursorData

/-- The message of a shape that has none yet. -/
def fresh (b : Build) (c : CursorService) (data : CursorData) : Arc :=
  ⟨c.next, .cursorData (data.toCursorShape.named b)⟩

/-- The handles and the shapes while a shape is filed. -/
structure Captured (b : Build) (c : CursorService) (data : CursorData) (p : Handles × CursorShapes) : Prop where
  ok : p.2.Ok
  holds : p.2.Holds (c.shapeMessage b data).2
  only : ∀ a, p.2.Holds a → c.shapes.Holds a ∨ a = c.fresh b data
  cached : ∀ k a, Assoc.get p.1 k = some a → p.2.Holds a ∧ Assoc.get c.state.cachedCursorData k = some a

theorem shapeMessage_kept {data : CursorData} {msg : Arc}
    (h : c.shapes.get (data.toCursorShape.contentId b.xxh3) = some msg) :
    c.shapeMessage b data = (c.shapes, msg) := by
  unfold shapeMessage CursorShapes.cursorShapeMessage
  rw [CursorShape.contentId] at h
  simp only [h]

theorem shapeMessage_new {data : CursorData} (h : c.shapes.get (data.toCursorShape.contentId b.xxh3) = none) :
    c.shapeMessage b data = c.shapes.sharedCursorShape (c.fresh b data) := by
  unfold shapeMessage CursorShapes.cursorShapeMessage
  rw [CursorShape.contentId] at h
  simp only [h]
  rfl

/-- The message has the id of the content, whoever kept it. -/
theorem shapeMessage_id (h : c.shapes.Ok) (data : CursorData) :
    ∃ cd, (c.shapeMessage b data).2.msg = .cursorData cd ∧ cd.id = data.toCursorShape.contentId b.xxh3 := by
  cases hget : c.shapes.get (data.toCursorShape.contentId b.xxh3) with
  | some msg =>
    rw [shapeMessage_kept hget]
    exact h.keyed _ _ hget
  | none =>
    have hshared : CursorShapes.Shared c.shapes _ (c.fresh b data) _ := .shared h rfl
    rw [shapeMessage_new hget]
    rcases hshared.same with hsame | hsame
    · rw [hsame]
      exact ⟨_, rfl, rfl⟩
    · exact h.keyed _ _ hsame

theorem Captured.shapeMessage (h : c.Caches) (data : CursorData) :
    Captured b c data (c.state.cachedCursorData, (c.shapeMessage b data).1) := by
  cases hget : c.shapes.get (data.toCursorShape.contentId b.xxh3) with
  | some msg =>
    have hmsg := shapeMessage_kept hget
    rw [hmsg]
    refine ⟨h.shapes, ?_, fun a ha => .inl ha, fun k a ha => ⟨h.cached k a ha, ha⟩⟩
    rw [hmsg]
    exact h.shapes.holds hget
  | none =>
    have hmsg := shapeMessage_new hget
    have hshared : CursorShapes.Shared c.shapes _ (c.fresh b data) _ := .shared h.shapes rfl
    rw [hmsg]
    refine ⟨hshared.ok, ?_, hshared.only, fun k a ha => ⟨hshared.old a (h.cached k a ha), ha⟩⟩
    rw [hmsg]
    exact hshared.holds

/-- The handles and the shapes start over together, and the message being sent stays. -/
theorem Captured.restart {data : CursorData} {p : Handles × CursorShapes} (h : Captured b c data p) :
    Captured b c data ([], p.2.restart (c.shapeMessage b data).2) := by
  obtain ⟨cd, hcd, -⟩ := h.holds
  obtain ⟨hok, hholds⟩ := p.2.restarted hcd
  refine ⟨hok, (hholds _).2 rfl, fun a ha => ?_, fun k a ha => (by cases ha)⟩
  rw [(hholds a).1 ha]
  exact h.only _ h.holds

theorem Captured.limitDrmHandles {data : CursorData} {p : Handles × CursorShapes} (h : Captured b c data p) :
    Captured b c data (limitDrmHandles p.1 p.2 (c.shapeMessage b data).2) := by
  unfold Cursor.limitDrmHandles
  split_ifs
  · exact h.restart
  · exact h

theorem Captured.limitCursorHandles {data : CursorData} {p : Handles × CursorShapes} (h : Captured b c data p) :
    Captured b c data (limitCursorHandles p.1 p.2 (c.shapeMessage b data).2) := by
  unfold Cursor.limitCursorHandles
  split_ifs
  · exact h.restart
  · exact h

theorem Captured.limited (h : c.Caches) (data : CursorData) : Captured b c data (c.limited b data) := by
  have hmsg : Captured b c data _ := .shapeMessage h data
  unfold CursorService.limited
  refine Captured.limitCursorHandles ?_
  split_ifs
  · exact hmsg.limitDrmHandles
  · exact hmsg

/-- What is filed under a handle, after a shape was filed. -/
theorem get_filed (h : c.Caches) {hcursor k : UInt64} {data : CursorData} {a : Arc}
    (ha : Assoc.get (c.filed b hcursor data).state.cachedCursorData k = some a) :
    (c.filed b hcursor data).shapes.Holds a ∧
      (Assoc.get c.state.cachedCursorData k = some a ∨
        k = cacheKey b hcursor data ∧ a = (c.shapeMessage b data).2) := by
  have hlim : Captured b c data _ := .limited h data
  simp only [filed] at ha
  split_ifs at ha
  · exact ⟨(hlim.cached k a ha).1, .inl (hlim.cached k a ha).2⟩
  · rw [Assoc.get_put] at ha
    split_ifs at ha with hk
    · cases ha
      exact ⟨hlim.holds, .inr ⟨hk, rfl⟩⟩
    · exact ⟨(hlim.cached k a ha).1, .inl (hlim.cached k a ha).2⟩

theorem live_filed (h : c.Caches) {hcursor : UInt64} {data : CursorData} {a : Arc}
    (ha : (c.filed b hcursor data).Live a) : c.Live a ∨ a = c.fresh b data := by
  rcases ha with ha | ha
  · exact .inl (.inl ha)
  · exact ((Captured.limited h data).only a ha).imp_left .inr

theorem Caches.filed (h : c.Caches) (hcursor : UInt64) (data : CursorData) : (c.filed b hcursor data).Caches := by
  have hfresh : ∀ a, c.Live a → a.addr ≠ (c.fresh b data).addr := fun a ha => Nat.ne_of_lt (h.below a ha)
  refine ⟨(Captured.limited h data).ok, fun k a ha => (get_filed h ha).1, fun a ha => ?_,
    fun a a' ha ha' haddr => ?_⟩
  · rcases live_filed h ha with ha | rfl
    · exact Nat.lt_succ_of_lt (h.below a ha)
    · exact Nat.lt_succ_self c.next
  · rcases live_filed h ha with ha | rfl
    · rcases live_filed h ha' with ha' | rfl
      · exact h.apart a a' ha ha' haddr
      · exact absurd haddr (hfresh a ha)
    · rcases live_filed h ha' with ha' | rfl
      · exact absurd haddr.symm (hfresh a' ha')
      · rfl

/-- The send is skipped where the message is the object that was sent last. -/
theorem coherent_shown (h : c.Caches) (hcursor : UInt64) {msg : Arc} (hmsg : c.shapes.Holds msg) :
    (c.shown hcursor msg).Coherent := by
  refine ⟨⟨h.shapes, h.cached, h.below, h.apart⟩, fun m hm => ?_, fun hno => ?_⟩
  · simp only [CursorService.shown] at hm
    split_ifs at hm
    cases hm
    exact hmsg
  · have hptr : msg.ptrEq c.state.cursorData = true := by
      by_contra hptr
      exact hno msg (if_neg hptr)
    have hsame : msg = c.state.cursorData := h.apart _ _ (.inr hmsg) (.inl rfl) (beq_iff_eq.1 hptr)
    exact .inr (hsame ▸ hmsg)

/-! ## What the platform reports -/

/-- What the platform names in a call of `run_cursor` that does not fail: the handle, or the id of the shape
served in its place. -/
def reported (b : Build) (c : CursorService) : Event → Option UInt64
  | .getCursor (.ok (some hcursor)) data =>
    if hcursor = c.state.hcursor ∨ (Assoc.get c.state.cachedCursorData hcursor).isSome then some hcursor
    else data.toOption.map (cacheKey b hcursor)
  | _ => none

/-- What a call of `run_cursor` does until it sends: it fails, there is nothing new, the handle is filed, or a
shape is captured. -/
inductive Got (b : Build) (c : CursorService) (cursor : Except Unit (Option UInt64)) (data : Except Unit CursorData) :
    CursorService → Prop
  | failed : c.reported b (.getCursor cursor data) = none → Got b c cursor data { c with pc := .idle }
  | nothing : c.reported b (.getCursor cursor data) = none → Got b c cursor data { c with pc := .snapshot }
  | same : c.reported b (.getCursor cursor data) = some c.state.hcursor →
      Got b c cursor data { c with pc := .snapshot }
  | hit (k : UInt64) (msg : Arc) : c.reported b (.getCursor cursor data) = some k →
      Assoc.get c.state.cachedCursorData k = some msg → Got b c cursor data (c.shown k msg)
  | captured (k : UInt64) (d : CursorData) : cursor = .ok (some k) → data = .ok d →
      c.reported b (.getCursor cursor data) = some (cacheKey b k d) →
      Got b c cursor data ((c.filed b k d).shown (cacheKey b k d) (c.shapeMessage b d).2)

theorem got_getCursor (cursor : Except Unit (Option UInt64)) (data : Except Unit CursorData) :
    Got b c cursor data (c.getCursor b cursor data) := by
  unfold getCursor
  split
  · exact .failed rfl
  · exact .nothing rfl
  rename_i k
  split_ifs with hk
  · exact .same (by rw [reported, if_pos (.inl hk), hk])
  split
  · rename_i msg hget
    exact .hit k msg (by rw [reported, if_pos (.inr (by rw [hget]; rfl))]) hget
  rename_i hget
  have hnew : ¬ (k = c.state.hcursor ∨ (Assoc.get c.state.cachedCursorData k).isSome = true) := by
    rw [hget]
    simpa using hk
  split
  · exact .failed (by rw [reported, if_neg hnew]; rfl)
  · exact .captured k _ rfl rfl (by rw [reported, if_neg hnew]; rfl)

theorem Coherent.getCursor (h : c.Coherent) (hpc : c.pc = .running) {cursor : Except Unit (Option UInt64)}
    {data : Except Unit CursorData} (hgot : Got b c cursor data c') : c'.Coherent := by
  have hshown := h.shown fun msg hmsg => by
    rw [hpc] at hmsg
    cases hmsg
  cases hgot with
  | failed _ => exact ⟨⟨h.shapes, h.cached, h.below, h.apart⟩, fun _ hmsg => (by cases hmsg), fun _ => hshown⟩
  | nothing _ | same _ =>
    exact ⟨⟨h.shapes, h.cached, h.below, h.apart⟩, fun _ hmsg => (by cases hmsg), fun _ => hshown⟩
  | hit k msg _ hget => exact coherent_shown h.toCaches k (h.cached k msg hget)
  | captured k d _ _ _ => exact coherent_shown (h.toCaches.filed k d) _ (Captured.limited h.toCaches d).holds

/-- A step of the thread that does not ask the platform. -/
inductive Went (c : CursorService) : CursorService → Prop
  | polled (mayReset : Bool) (pc : Pc) : c.pc = .idle → pc = .idle ∨ pc = .running ∨ pc = .resetting →
      (pc = .resetting → c.sp.subscribes = []) → Went c { c with mayReset := mayReset, pc := pc }
  | reset : c.pc = .resetting → Went c c.reset
  | sent (msg : Arc) : c.pc = .sending msg →
      Went c { c with sp := c.sp.sendShared msg, state := { c.state with cursorData := msg }, pc := .snapshot }
  | snapshot (sp : ServiceTmpl Arc) (pc : Pc) : c.pc = .snapshot → sp = c.sp ∧ pc = .idle ∨
      sp = { c.sp with swap := some [] } ∧ pc = .snapshotting → Went c { c with sp := sp, pc := pc }
  | swapSend : c.pc = .snapshotting → Went c { c with sp := c.sp.swapSend [] c.state.cursorData, pc := .swapping }
  | swapDrop : c.pc = .swapping → Went c { c with sp := c.sp.swapDrop [c.state.cursorData] true, pc := .idle }

theorem went_poll (hpc : c.pc = .idle) : Went c c.poll := by
  unfold poll
  split_ifs with hsubs hreset
  · exact .polled true .running hpc (.inr (.inl rfl)) fun h => by cases h
  · refine .polled c.mayReset .resetting hpc (.inr (.inr rfl)) fun _ => ?_
    rw [hasSubscribes, Bool.or_eq_true, not_or, decide_eq_true_iff, Nat.not_lt, Nat.le_zero] at hsubs
    exact List.eq_nil_of_length_eq_zero hsubs.1
  · have hpolled : Went c { c with mayReset := c.mayReset, pc := .idle } :=
      .polled c.mayReset .idle hpc (.inl rfl) fun h => by cases h
    rw [← hpc] at hpolled
    exact hpolled

theorem went_thread (hs : c.thread = some c') : Went c c' := by
  unfold thread at hs
  split at hs <;> rename_i hpc
  · cases hs
    exact went_poll hpc
  · cases hs
  · cases hs
    exact .reset hpc
  · cases hs
    exact .sent _ hpc
  · cases hs
    refine .snapshot _ _ hpc ?_
    unfold ServiceTmpl.snapshot
    split_ifs
    · exact .inr ⟨rfl, rfl⟩
    · exact .inl ⟨rfl, rfl⟩
  · cases hs
    exact .swapSend hpc
  · cases hs
    exact .swapDrop hpc

/-- Only the place of the thread and the subscribers change. -/
theorem Coherent.move (h : c.Coherent) (hno : ∀ msg, c.pc ≠ .sending msg) {sp : ServiceTmpl Arc} {mayReset : Bool}
    {pc : Pc} (hpc : ∀ msg, pc ≠ .sending msg) :
    ({ c with sp := sp, mayReset := mayReset, pc := pc } : CursorService).Coherent :=
  ⟨⟨h.shapes, h.cached, h.below, h.apart⟩, fun msg hmsg => absurd hmsg (hpc msg), fun _ => h.shown hno⟩

/-- As `StateCursor` is by default, with no shape kept. -/
theorem coherent_blank (hstate : c.state = { cursorData := ⟨c.state.cursorData.addr, .empty⟩ })
    (hshapes : c.shapes = {}) (hnext : c.state.cursorData.addr < c.next) (hpc : ∀ msg, c.pc ≠ .sending msg) :
    c.Coherent := by
  have hnone : ∀ a, ¬ c.shapes.Holds a := by
    rw [hshapes]
    exact CursorShapes.not_holds_clear {}
  have hlive : ∀ a, c.Live a → a = c.state.cursorData := fun a ha => ha.resolve_right (hnone a)
  refine ⟨⟨hshapes ▸ CursorShapes.ok_clear {}, fun k a ha => ?_, fun a ha => ?_, fun a a' ha ha' _ => ?_⟩,
    fun msg hmsg => absurd hmsg (hpc msg), fun _ => .inl ?_⟩
  · rw [hstate] at ha
    cases ha
  · rw [hlive a ha]
    exact hnext
  · rw [hlive a ha, hlive a' ha']
  · rw [hstate]

theorem Coherent.thread (h : c.Coherent) (hw : Went c c') : c'.Coherent := by
  cases hw with
  | polled mayReset pc hpc hplace _ =>
    refine h.move (fun msg hmsg => ?_) fun msg hmsg => ?_
    · rw [hpc] at hmsg
      cases hmsg
    · rcases hplace with rfl | rfl | rfl <;> cases hmsg
  | reset _ => exact coherent_blank rfl rfl (Nat.lt_succ_self c.next) fun msg hmsg => by cases hmsg
  | sent msg hpc =>
    have hmsg : c.shapes.Holds msg := h.sending msg hpc
    have hlive : ∀ a, a = msg ∨ c.shapes.Holds a → c.Live a := by
      rintro a (rfl | ha)
      · exact .inr hmsg
      · exact .inr ha
    refine ⟨⟨h.shapes, h.cached, fun a ha => h.below a (hlive a ha), fun a a' ha ha' => ?_⟩,
      fun _ hm => (by cases hm), fun _ => .inr hmsg⟩
    exact h.apart a a' (hlive a ha) (hlive a' ha')
  | snapshot sp pc hpc hplace =>
    refine h.move (fun msg hmsg => ?_) fun msg hmsg => ?_
    · rw [hpc] at hmsg
      cases hmsg
    · rcases hplace with ⟨-, rfl⟩ | ⟨-, rfl⟩ <;> cases hmsg
  | swapSend hpc | swapDrop hpc =>
    refine h.move (fun msg hmsg => ?_) fun msg hmsg => (by cases hmsg)
    rw [hpc] at hmsg
    cases hmsg

theorem Coherent.step {e : Event} (h : c.Coherent) (hs : c.step b e = some c') : c'.Coherent := by
  cases e with
  | thread => exact h.thread (went_thread hs)
  | getCursor cursor data =>
    obtain ⟨hpc, heq⟩ := Option.ite_none_right_eq_some.1 hs
    cases heq
    exact h.getCursor hpc (got_getCursor cursor data)
  | onSubscribe id | onUnsubscribe id =>
    cases hs
    exact ⟨⟨h.shapes, h.cached, h.below, h.apart⟩, h.sending, h.shown⟩

theorem coherent_new : new.Coherent := coherent_blank rfl rfl Nat.one_pos fun msg hmsg => by cases hmsg

end CursorService

end FontisRemote.Services.Cursor
