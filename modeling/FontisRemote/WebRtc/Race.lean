import FontisRemote.Lib.Run

/-!
# Racing WebRTC against the other transports

`race_transports_prefer_webrtc` of `client.rs`. An attempt ends direct (`is_p2p`), relayed or failed. A
direct result is returned at once; a relayed one is held for `window_ms`, so that the other side has its
chance, unless nothing else is racing. The other attempts race in a `select_ok`, and again without the
one that was relayed.

A step is one arm of the `select!`: the WebRTC attempt ends, one of the others ends (the poll of its
future is ready), or the window has passed. The arms that are ready at one time come in any order.
-/

namespace FontisRemote.WebRtc

open FontisRemote.Lib

/-- `select_ok` of the futures crate: it is ready with the first success and the attempts that have not
ended, in some order, or with the last failure. -/
structure SelectOk (T : Type) where
  /-- What it is ready with when one of its attempts ends and `rest` go on; `none` if it waits. -/
  ready : List Nat → Except String T → Option (Except String (T × List Nat))
  success : ∀ rest conn, ∃ unfinished, unfinished.Perm rest ∧
    ready rest (.ok conn) = some (.ok (conn, unfinished))
  lastFailure : ∀ e, ready [] (.error e) = some (.error e)
  failure : ∀ rest e, rest ≠ [] → ready rest (.error e) = none

inductive Attempt
  | webrtc
  /-- One of `others`, by its position. -/
  | other (i : Nat)
deriving DecidableEq, Repr

/-- An attempt of a race against so many others. -/
def Attempt.among (n : Nat) : Attempt → Prop
  | .webrtc => True
  | .other i => i < n

inductive RaceEvent (T : Type)
  | ends (attempt : Attempt) (res : Except String T)
  | windowPassed

structure Race (T : Type) where
  now : Nat
  /-- `webrtc_fut` is there. -/
  webrtcFut : Bool := true
  othersFut : Option (List Nat)
  held : Option T := none
  webrtcErr : Option String := none
  othersErr : Option String := none
  /-- The deadline of the sleep. -/
  window : Nat
  windowStarted : Bool := false
  returned : Option (Except String T) := none

namespace Race

variable {T : Type} (selectOk : SelectOk T) (windowMs : Nat) (isP2p : T → Bool) (s : Race T)

def hold (conn : T) : Race T :=
  if s.held.isNone then
    { s with held := some conn, window := s.now + windowMs, windowStarted := true }
  else s

def onWebrtc (res : Except String T) : Race T :=
  let s := { s with webrtcFut := false }
  match res with
  | .ok conn =>
    if isP2p conn || s.othersFut.isNone then { s with returned := some (.ok conn) }
    else s.hold windowMs conn
  | .error e =>
    match if s.othersFut.isNone then s.held else none with
    | some conn => { s with held := none, returned := some (.ok conn) }
    | none =>
      match s.othersErr with
      | some oe =>
        { s with
          othersErr := none
          returned := some (.error ("WebRTC failed: " ++ e ++ "; fallback failed: " ++ oe)) }
      | none =>
        if s.othersFut.isNone then { s with returned := some (.error ("WebRTC failed: " ++ e)) }
        else { s with webrtcErr := some e }

def onOthers (res : Except String (T × List Nat)) : Race T :=
  let s := { s with othersFut := none }
  match res with
  | .ok (conn, unfinished) =>
    if isP2p conn then { s with returned := some (.ok conn) }
    else if !s.webrtcFut && unfinished.isEmpty then { s with returned := some (.ok conn) }
    else
      let s := s.hold windowMs conn
      if unfinished.isEmpty then s else { s with othersFut := some unfinished }
  | .error e =>
    match s.webrtcErr with
    | some we =>
      match s.held with
      | some conn => { s with webrtcErr := none, held := none, returned := some (.ok conn) }
      | none =>
        { s with
          webrtcErr := none
          returned := some (.error ("WebRTC failed: " ++ we ++ "; fallback failed: " ++ e)) }
    | none =>
      if !s.webrtcFut then
        match s.held with
        | some conn => { s with held := none, returned := some (.ok conn) }
        | none => { s with returned := some (.error e) }
      else { s with othersErr := some e }

/-- One of the others ends, in the `select_ok` they race in. -/
def onOther (i : Nat) (res : Except String T) : Option (Race T) :=
  s.othersFut.bind fun attempts =>
    if i ∈ attempts then
      match selectOk.ready (attempts.erase i) res with
      | some res => some (s.onOthers windowMs isP2p res)
      | none => some { s with othersFut := some (attempts.erase i) }
    else none

def onWindow : Race T :=
  match s.held with
  | some conn => { s with held := none, returned := some (.ok conn) }
  | none => { s with windowStarted := false }

/-- One arm, at a time. There is no step of a race that has returned. -/
def step (e : Nat × RaceEvent T) : Option (Race T) :=
  if s.returned.isSome ∨ e.1 < s.now then none
  else
    let s := { s with now := e.1 }
    match e.2 with
    | .ends .webrtc res => if s.webrtcFut then some (s.onWebrtc windowMs isP2p res) else none
    | .ends (.other i) res => s.onOther selectOk windowMs isP2p i res
    | .windowPassed => if s.windowStarted ∧ s.window ≤ s.now then some s.onWindow else none

/-- The race begins at some time. -/
def Init (n : Nat) (s : Race T) : Prop :=
  ∃ now, s = { now := now, othersFut := some (List.range n), window := now + windowMs }

section Hold

variable {windowMs s} (conn : T)

theorem webrtcFut_hold : (s.hold windowMs conn).webrtcFut = s.webrtcFut := by
  unfold hold
  split <;> rfl

theorem othersFut_hold : (s.hold windowMs conn).othersFut = s.othersFut := by
  unfold hold
  split <;> rfl

theorem webrtcErr_hold : (s.hold windowMs conn).webrtcErr = s.webrtcErr := by
  unfold hold
  split <;> rfl

theorem othersErr_hold : (s.hold windowMs conn).othersErr = s.othersErr := by
  unfold hold
  split <;> rfl

theorem returned_hold : (s.hold windowMs conn).returned = s.returned := by
  unfold hold
  split <;> rfl

end Hold

/-! ## What has happened -/

abbrev History (T : Type) := List (Race T × Nat × RaceEvent T)

def Ended (h : History T) (attempt : Attempt) (res : Except String T) : Prop :=
  ∃ p ∈ h, p.2.2 = .ends attempt res

/-- No attempt is running. -/
def AllEnded (n : Nat) (h : History T) : Prop :=
  ∀ attempt : Attempt, attempt.among n → ∃ res, Ended h attempt res

/-- The window has passed since a relayed result, and so since the first. -/
def WindowPassed (h : History T) (now : Nat) : Prop :=
  ∃ p ∈ h, ∃ attempt conn,
    p.2.2 = .ends attempt (.ok conn) ∧ isP2p conn = false ∧ p.2.1 + windowMs ≤ now

variable {selectOk windowMs isP2p s} {n : Nat} {h : History T}

theorem ended_cons {p : Race T × Nat × RaceEvent T} {attempt : Attempt} {res : Except String T} :
    Ended (p :: h) attempt res ↔ p.2.2 = .ends attempt res ∨ Ended h attempt res :=
  List.exists_mem_cons_iff ..

/-- What must hold of a result. -/
structure Outcome (windowMs : Nat) (isP2p : T → Bool) (n : Nat) (h : History T) (now : Nat)
    (r : Except String T) : Prop where
  failed : ∀ e, r = .error e → ∀ attempt : Attempt, attempt.among n → ∃ e', Ended h attempt (.error e')
  came : ∀ conn, r = .ok conn → ∃ attempt, Ended h attempt (.ok conn)
  direct : ∀ attempt conn, Ended h attempt (.ok conn) → isP2p conn = true →
    ∃ conn', r = .ok conn' ∧ isP2p conn' = true
  relayed : ∀ conn, r = .ok conn → isP2p conn = false → AllEnded n h ∨ WindowPassed windowMs isP2p h now

/-- The successes so far were relayed and one of them is held, since the window was set. -/
structure Parked (windowMs : Nat) (isP2p : T → Bool) (h : History T) (held : Option T) (window : Nat) :
    Prop where
  successes : ∀ attempt conn, Ended h attempt (.ok conn) → isP2p conn = false ∧ held.isSome = true
  since : ∀ conn, held = some conn →
    ∃ p ∈ h, ∃ attempt, p.2.2 = .ends attempt (.ok conn) ∧ window = p.2.1 + windowMs

/-- What holds while the race goes on. -/
structure Racing (windowMs : Nat) (isP2p : T → Bool) (n : Nat) (h : History T) (s : Race T) : Prop where
  webrtc : s.webrtcFut = true ↔ ∀ res, ¬ Ended h .webrtc res
  others : ∀ i, i ∈ s.othersFut.getD [] ↔ i < n ∧ ∀ res, ¬ Ended h (.other i) res
  nonempty : s.othersFut ≠ some []
  nodup : (s.othersFut.getD []).Nodup
  running : s.webrtcFut = true ∨ s.othersFut.isSome = true
  webrtcErr : s.webrtcErr.isSome = true → s.webrtcFut = false
  othersErr : s.othersErr.isSome = true → s.othersFut = none
  parked : Parked windowMs isP2p h s.held s.window

/-- What holds after every step. -/
structure Follows (windowMs : Nat) (isP2p : T → Bool) (n : Nat) (h : History T) (s : Race T) : Prop where
  racing : s.returned = none → Racing windowMs isP2p n h s
  outcome : ∀ r, s.returned = some r → Outcome windowMs isP2p n h s.now r

variable {p : Race T × Nat × RaceEvent T} {attempt : Attempt} {res : Except String T} {conn : T}

/-! ### What is held -/

/-- A step that is no success leaves it. -/
theorem Parked.keep {held : Option T} {window : Nat} (hparked : Parked windowMs isP2p h held window)
    (hp : ∀ attempt conn, p.2.2 ≠ .ends attempt (.ok conn)) :
    Parked windowMs isP2p (p :: h) held window := by
  refine ⟨fun attempt conn hended => ?_, fun conn hheld => ?_⟩
  · obtain hnew | hpast := ended_cons.mp hended
    · exact absurd hnew (hp attempt conn)
    · exact hparked.successes attempt conn hpast
  · obtain ⟨q, hq, hsince⟩ := hparked.since conn hheld
    exact ⟨q, List.mem_cons_of_mem _ hq, hsince⟩

/-- A relayed success is held, or the one before it stays. -/
theorem Parked.hold (hparked : Parked windowMs isP2p h s.held s.window)
    (hp : p.2.2 = .ends attempt (.ok conn)) (hrelayed : isP2p conn = false) (hnow : p.2.1 = s.now) :
    Parked windowMs isP2p (p :: h) (s.hold windowMs conn).held (s.hold windowMs conn).window := by
  have hsome : (s.hold windowMs conn).held.isSome = true := by
    unfold Race.hold
    split
    · rfl
    · rename_i hheld
      exact Option.isSome_iff_ne_none.mpr (by simpa using hheld)
  refine ⟨fun attempt' conn' hended => ⟨?_, hsome⟩, fun conn' hheld => ?_⟩
  · obtain hnew | hpast := ended_cons.mp hended
    · rw [hp] at hnew
      obtain ⟨-, hconn⟩ := RaceEvent.ends.inj hnew
      obtain rfl := Except.ok.inj hconn
      exact hrelayed
    · exact (hparked.successes attempt' conn' hpast).1
  · unfold Race.hold at hheld ⊢
    split at hheld
    · rename_i hempty
      obtain rfl := Option.some.inj hheld
      refine ⟨p, List.mem_cons_self .., attempt, hp, ?_⟩
      rw [if_pos hempty, hnow]
    · rename_i hfull
      rw [if_neg hfull]
      obtain ⟨q, hq, hsince⟩ := hparked.since conn' hheld
      exact ⟨q, List.mem_cons_of_mem _ hq, hsince⟩

/-! ### What is returned -/

/-- A direct success is returned when it comes. -/
theorem outcome_direct (hp : p.2.2 = .ends attempt (.ok conn)) (hdirect : isP2p conn = true) (now : Nat) :
    Outcome windowMs isP2p n (p :: h) now (.ok conn) := by
  have hcame : Ended (p :: h) attempt (.ok conn) := ended_cons.mpr (.inl hp)
  refine ⟨nofun, fun conn' hr => ?_, fun _ _ _ _ => ⟨conn, rfl, hdirect⟩, fun conn' hr hrelayed => ?_⟩
  · obtain rfl := Except.ok.inj hr
    exact ⟨attempt, hcame⟩
  · obtain rfl := Except.ok.inj hr
    rw [hdirect] at hrelayed
    cases hrelayed

/-- A relayed one, where no direct one has come. -/
theorem outcome_relayed {held : Option T} {window now : Nat} (hparked : Parked windowMs isP2p h held window)
    (hcame : Ended h attempt (.ok conn)) (hlate : AllEnded n h ∨ WindowPassed windowMs isP2p h now) :
    Outcome windowMs isP2p n h now (.ok conn) := by
  refine ⟨nofun, fun conn' hr => ?_, fun attempt' conn' hended hdirect => ?_, fun _ _ _ => hlate⟩
  · obtain rfl := Except.ok.inj hr
    exact ⟨attempt, hcame⟩
  · rw [(hparked.successes attempt' conn' hended).1] at hdirect
    cases hdirect

/-- An error, where all have ended and nothing is held. -/
theorem outcome_failed {window : Nat} (hparked : Parked windowMs isP2p h none window)
    (hall : AllEnded n h) (now : Nat) (e : String) :
    Outcome windowMs isP2p n h now (.error e) := by
  have hnone : ∀ attempt conn, ¬ Ended h attempt (.ok conn) := by
    intro attempt conn hended
    have := (hparked.successes attempt conn hended).2
    cases this
  refine ⟨fun _ _ attempt hamong => ?_, nofun, fun attempt conn hended => ?_, nofun⟩
  · obtain ⟨res, hres⟩ := hall attempt hamong
    cases res with
    | ok conn => exact absurd hres (hnone attempt conn)
    | error e' => exact ⟨e', hres⟩
  · exact absurd hended (hnone attempt conn)

/-! ### What is running -/

namespace Racing

variable (hs : Racing windowMs isP2p n h s)

include hs

theorem webrtc_of_ended (hfut : s.webrtcFut = false) : ∃ res, Ended h .webrtc res := by
  by_contra hnone
  have : s.webrtcFut = true := hs.webrtc.mpr fun res hres => hnone ⟨res, hres⟩
  rw [hfut] at this
  cases this

/-- All have ended with the WebRTC attempt, when the others are through. -/
theorem allEnded_webrtc (hp : p.2.2 = .ends .webrtc res) (hothers : s.othersFut = none) :
    AllEnded n (p :: h) := by
  intro attempt hamong
  cases attempt with
  | webrtc => exact ⟨res, ended_cons.mpr (.inl hp)⟩
  | other i =>
    by_contra hnone
    have hmem : i ∈ s.othersFut.getD [] :=
      (hs.others i).mpr ⟨hamong, fun res hres => hnone ⟨res, ended_cons.mpr (.inr hres)⟩⟩
    rw [hothers] at hmem
    cases hmem

/-- All have ended with the last of the others, when the WebRTC attempt is through. -/
theorem allEnded_others {i : Nat} (hp : p.2.2 = .ends (.other i) res)
    (hlast : (s.othersFut.getD []).erase i = []) (hfut : s.webrtcFut = false) : AllEnded n (p :: h) := by
  intro attempt hamong
  cases attempt with
  | webrtc =>
    obtain ⟨res, hres⟩ := hs.webrtc_of_ended hfut
    exact ⟨res, ended_cons.mpr (.inr hres)⟩
  | other j =>
    by_cases hij : j = i
    · subst hij
      exact ⟨res, ended_cons.mpr (.inl hp)⟩
    · by_contra hnone
      have hmem : j ∈ s.othersFut.getD [] :=
        (hs.others j).mpr ⟨hamong, fun res hres => hnone ⟨res, ended_cons.mpr (.inr hres)⟩⟩
      have herase : j ∈ (s.othersFut.getD []).erase i := (List.mem_erase_of_ne hij).mpr hmem
      rw [hlast] at herase
      cases herase

/-- The WebRTC attempt has ended and the others go on. -/
theorem webrtc_ends {s' : Race T} (hp : p.2.2 = .ends .webrtc res) (hfut : s'.webrtcFut = false)
    (hothers : s'.othersFut = s.othersFut) (hon : s.othersFut.isSome = true)
    (herr : s'.othersErr = s.othersErr)
    (hparked : Parked windowMs isP2p (p :: h) s'.held s'.window) :
    Racing windowMs isP2p n (p :: h) s' := by
  have hended : Ended (p :: h) .webrtc res := ended_cons.mpr (.inl hp)
  have hother : ∀ i res', Ended (p :: h) (.other i) res' ↔ Ended h (.other i) res' := by
    intro i res'
    rw [ended_cons, hp]
    simp
  refine ⟨?_, fun i => ?_, ?_, ?_, .inr ?_, fun _ => hfut, fun hsome => ?_, hparked⟩
  · rw [hfut]
    exact ⟨nofun, fun hnone => absurd hended (hnone res)⟩
  · rw [hothers, hs.others i]
    simp only [hother]
  · rw [hothers]
    exact hs.nonempty
  · rw [hothers]
    exact hs.nodup
  · rw [hothers]
    exact hon
  · rw [hothers]
    rw [herr] at hsome
    exact hs.othersErr hsome

/-- One of the others has ended; the rest of them go on, or the WebRTC attempt does. -/
theorem other_ends {s' : Race T} {i : Nat} (hp : p.2.2 = .ends (.other i) res)
    (hfut : s'.webrtcFut = s.webrtcFut)
    (hothers : (s'.othersFut.getD []).Perm ((s.othersFut.getD []).erase i))
    (hnonempty : s'.othersFut ≠ some []) (hrunning : s'.webrtcFut = true ∨ s'.othersFut.isSome = true)
    (herr : s'.webrtcErr = s.webrtcErr) (hothersErr : s'.othersErr.isSome = true → s'.othersFut = none)
    (hparked : Parked windowMs isP2p (p :: h) s'.held s'.window) :
    Racing windowMs isP2p n (p :: h) s' := by
  have hwebrtc : ∀ res', Ended (p :: h) .webrtc res' ↔ Ended h .webrtc res' := by
    intro res'
    rw [ended_cons, hp]
    simp
  have hother : ∀ j, (∀ res', ¬ Ended (p :: h) (.other j) res') ↔
      j ≠ i ∧ ∀ res', ¬ Ended h (.other j) res' := by
    intro j
    simp only [ended_cons, hp, RaceEvent.ends.injEq, Attempt.other.injEq, not_or]
    constructor
    · intro hnone
      exact ⟨fun hij => (hnone res).1 ⟨hij.symm, rfl⟩, fun res' => (hnone res').2⟩
    · rintro ⟨hij, hnone⟩ res'
      exact ⟨fun heq => hij heq.1.symm, hnone res'⟩
  refine ⟨?_, fun j => ?_, hnonempty, ?_, hrunning, ?_, hothersErr, hparked⟩
  · rw [hfut, hs.webrtc]
    simp only [hwebrtc]
  · rw [hothers.mem_iff, hs.nodup.mem_erase_iff, hs.others j, hother j]
    exact ⟨fun ⟨hij, hj, hnone⟩ => ⟨hj, hij, hnone⟩, fun ⟨hj, hij, hnone⟩ => ⟨hij, hj, hnone⟩⟩
  · exact hothers.nodup_iff.mpr (hs.nodup.erase i)
  · rw [herr, hfut]
    exact hs.webrtcErr

end Racing

/-! ## The arms -/

theorem Follows.of_returned {r : Except String T} (hr : s.returned = some r)
    (ho : Outcome windowMs isP2p n h s.now r) : Follows windowMs isP2p n h s := by
  refine ⟨fun hnone => ?_, fun r' hr' => ?_⟩
  · rw [hr] at hnone
    cases hnone
  · obtain rfl := Option.some.inj (hr.symm.trans hr')
    exact ho

theorem Follows.of_racing (hr : s.returned = none) (hs : Racing windowMs isP2p n h s) :
    Follows windowMs isP2p n h s := by
  refine ⟨fun _ => hs, fun r hr' => ?_⟩
  rw [hr] at hr'
  cases hr'


theorem Racing.onWebrtc (hs : Racing windowMs isP2p n h s) (hret : s.returned = none)
    (hp : p.2.2 = .ends .webrtc res) (hnow : p.2.1 = s.now) :
    Follows windowMs isP2p n (p :: h) (s.onWebrtc windowMs isP2p res) := by
  have hended : ∀ {conn}, res = .ok conn → Ended (p :: h) .webrtc (.ok conn) := by
    rintro conn rfl
    exact ended_cons.mpr (.inl hp)
  unfold Race.onWebrtc
  dsimp only
  cases res with
  | ok conn =>
    dsimp only
    cases hdirect : isP2p conn with
    | true => exact .of_returned rfl (outcome_direct hp hdirect _)
    | false =>
      have hparked := Parked.hold (s := { s with webrtcFut := false }) hs.parked hp hdirect hnow
      rw [Bool.false_or]
      split
      · rename_i hothers
        have hall := hs.allEnded_webrtc hp (Option.isNone_iff_eq_none.mp hothers)
        exact .of_returned rfl (outcome_relayed hparked (hended rfl) (.inl hall))
      · rename_i hothers
        refine .of_racing ((returned_hold conn).trans hret) ?_
        have hon : s.othersFut.isSome = true := Option.isSome_iff_ne_none.mpr (by simpa using hothers)
        exact hs.webrtc_ends hp (webrtcFut_hold conn) (othersFut_hold conn) hon (othersErr_hold conn) hparked
  | error e =>
    have hparked : Parked windowMs isP2p (p :: h) s.held s.window :=
      hs.parked.keep fun attempt conn heq => by
        rw [hp] at heq
        cases heq
    dsimp only
    cases hothers : s.othersFut with
    | none =>
      have hall := hs.allEnded_webrtc hp hothers
      dsimp only [Option.isNone_none]
      rw [if_pos rfl]
      cases hheld : s.held with
      | some conn =>
        obtain ⟨q, hq, attempt, hcame, -⟩ := hparked.since conn hheld
        exact .of_returned rfl (outcome_relayed hparked ⟨q, hq, hcame⟩ (.inl hall))
      | none =>
        rw [hheld] at hparked
        dsimp only
        split
        · exact .of_returned rfl (outcome_failed hparked hall _ _)
        · rw [if_pos rfl]
          exact .of_returned rfl (outcome_failed hparked hall _ _)
    | some attempts =>
      have herr : s.othersErr = none := by
        by_contra hsome
        have := hs.othersErr (Option.isSome_iff_ne_none.mpr hsome)
        rw [hothers] at this
        cases this
      dsimp only [Option.isNone_some]
      rw [if_neg Bool.false_ne_true, herr]
      dsimp only
      rw [if_neg Bool.false_ne_true]
      refine .of_racing hret (hs.webrtc_ends hp rfl hothers.symm ?_ herr.symm hparked)
      rw [hothers]
      rfl

/-- The `select_ok` of the others is ready. -/
theorem Racing.onOthers {i : Nat} {attempts : List Nat} {ready : Except String (T × List Nat)}
    (hs : Racing windowMs isP2p n h s) (hret : s.returned = none)
    (hp : p.2.2 = .ends (.other i) res) (hnow : p.2.1 = s.now) (hothers : s.othersFut = some attempts)
    (hok : ∀ conn unfinished, ready = .ok (conn, unfinished) →
      res = .ok conn ∧ unfinished.Perm (attempts.erase i))
    (herror : ∀ e, ready = .error e → (∃ e', res = .error e') ∧ attempts.erase i = []) :
    Follows windowMs isP2p n (p :: h) (s.onOthers windowMs isP2p ready) := by
  have hget : s.othersFut.getD [] = attempts := by rw [hothers]; rfl
  unfold Race.onOthers
  dsimp only
  cases ready with
  | ok r =>
    obtain ⟨conn, unfinished⟩ := r
    obtain ⟨rfl, hunfinished⟩ := hok conn unfinished rfl
    have hended : Ended (p :: h) (.other i) (.ok conn) := ended_cons.mpr (.inl hp)
    dsimp only
    cases hdirect : isP2p conn with
    | true => exact .of_returned rfl (outcome_direct hp hdirect _)
    | false =>
      have hparked := Parked.hold (s := { s with othersFut := none }) hs.parked hp hdirect hnow
      rw [if_neg Bool.false_ne_true]
      split
      · rename_i hlast
        rw [Bool.and_eq_true, Bool.not_eq_true', List.isEmpty_iff] at hlast
        obtain ⟨hfut, rfl⟩ := hlast
        have hall := hs.allEnded_others hp (by rw [hget]; exact hunfinished.symm.eq_nil) hfut
        exact .of_returned rfl (outcome_relayed hparked hended (.inl hall))
      · rename_i hmore
        -- the relayed result is held, and what has not ended races again
        split
        · rename_i hempty
          rw [List.isEmpty_iff] at hempty
          rw [hempty] at hmore hunfinished
          have hfut : s.webrtcFut = true := by simpa using hmore
          refine .of_racing ((returned_hold conn).trans hret) (hs.other_ends hp (webrtcFut_hold conn) ?_ ?_ ?_
            (webrtcErr_hold conn) (fun _ => othersFut_hold conn) hparked)
          · rw [othersFut_hold, hget]
            exact hunfinished
          · rw [othersFut_hold]
            nofun
          · exact .inl ((webrtcFut_hold conn).trans hfut)
        · rename_i hrest
          refine .of_racing ((returned_hold conn).trans hret) (hs.other_ends hp (webrtcFut_hold conn) ?_ ?_
            (.inr rfl) (webrtcErr_hold conn) (fun hsome => ?_) hparked)
          · rw [hget]
            exact hunfinished
          · rintro heq
            obtain rfl := Option.some.inj heq
            exact hrest rfl
          · dsimp only at hsome
            rw [othersErr_hold] at hsome
            have := hs.othersErr hsome
            rw [hothers] at this
            cases this
  | error e =>
    obtain ⟨⟨e', rfl⟩, hlast⟩ := herror e rfl
    have hparked : Parked windowMs isP2p (p :: h) s.held s.window :=
      hs.parked.keep fun attempt conn heq => by
        rw [hp] at heq
        cases heq
    have hended : s.webrtcFut = false → AllEnded n (p :: h) :=
      hs.allEnded_others hp (by rw [hget]; exact hlast)
    have hcame : ∀ conn, s.held = some conn → ∃ attempt, Ended (p :: h) attempt (.ok conn) := by
      intro conn hheld
      obtain ⟨q, hq, attempt, hcame, -⟩ := hparked.since conn hheld
      exact ⟨attempt, q, hq, hcame⟩
    dsimp only
    cases hwebrtcErr : s.webrtcErr with
    | some we =>
      have hall := hended (hs.webrtcErr (by rw [hwebrtcErr]; rfl))
      dsimp only
      cases hheld : s.held with
      | some conn =>
        obtain ⟨attempt, hcame⟩ := hcame conn hheld
        exact .of_returned rfl (outcome_relayed hparked hcame (.inl hall))
      | none =>
        rw [hheld] at hparked
        exact .of_returned rfl (outcome_failed hparked hall _ _)
    | none =>
      dsimp only
      cases hfut : s.webrtcFut with
      | false =>
        have hall := hended hfut
        rw [if_pos (show (!false) = true from rfl)]
        cases hheld : s.held with
        | some conn =>
          obtain ⟨attempt, hcame⟩ := hcame conn hheld
          exact .of_returned rfl (outcome_relayed hparked hcame (.inl hall))
        | none =>
          rw [hheld] at hparked
          exact .of_returned rfl (outcome_failed hparked hall _ _)
      | true =>
        rw [if_neg (by decide)]
        refine .of_racing hret
          (hs.other_ends hp hfut.symm ?_ ?_ (.inl rfl) hwebrtcErr.symm (fun _ => rfl) hparked)
        · rw [hget, hlast]
          rfl
        · nofun

theorem Racing.onOther {i : Nat} {s' : Race T} (hs : Racing windowMs isP2p n h s)
    (hret : s.returned = none) (hp : p.2.2 = .ends (.other i) res) (hnow : p.2.1 = s.now)
    (hs' : s.onOther selectOk windowMs isP2p i res = some s') :
    Follows windowMs isP2p n (p :: h) s' := by
  unfold Race.onOther at hs'
  obtain ⟨attempts, hothers, hs'⟩ := Option.bind_eq_some_iff.mp hs'
  split at hs'
  · rename_i hmem
    have hget : s.othersFut.getD [] = attempts := by rw [hothers]; rfl
    split at hs'
    · rename_i ready hready
      obtain rfl := Option.some.inj hs'
      refine hs.onOthers hret hp hnow hothers (fun conn unfinished heq => ?_) (fun e heq => ?_)
      · subst heq
        cases res with
        | ok conn' =>
          obtain ⟨unfinished', hperm, hsuccess⟩ := selectOk.success (attempts.erase i) conn'
          rw [hready] at hsuccess
          obtain ⟨rfl, rfl⟩ := Prod.mk.inj (Except.ok.inj (Option.some.inj hsuccess))
          exact ⟨rfl, hperm⟩
        | error e =>
          by_cases hlast : attempts.erase i = []
          · rw [hlast, selectOk.lastFailure e] at hready
            cases hready
          · rw [selectOk.failure _ e hlast] at hready
            cases hready
      · subst heq
        cases res with
        | ok conn' =>
          obtain ⟨unfinished', -, hsuccess⟩ := selectOk.success (attempts.erase i) conn'
          rw [hready] at hsuccess
          cases hsuccess
        | error e' =>
          refine ⟨⟨e', rfl⟩, ?_⟩
          by_contra hmore
          rw [selectOk.failure _ e' hmore] at hready
          cases hready
    · rename_i hwaits
      obtain rfl := Option.some.inj hs'
      -- a failure that is not the last
      have hfailed : (∃ e, res = .error e) ∧ attempts.erase i ≠ [] := by
        cases res with
        | ok conn =>
          obtain ⟨unfinished, -, hsuccess⟩ := selectOk.success (attempts.erase i) conn
          rw [hwaits] at hsuccess
          cases hsuccess
        | error e =>
          refine ⟨⟨e, rfl⟩, fun hlast => ?_⟩
          rw [hlast, selectOk.lastFailure e] at hwaits
          cases hwaits
      obtain ⟨⟨e, rfl⟩, hmore⟩ := hfailed
      have hparked : Parked windowMs isP2p (p :: h) s.held s.window :=
        hs.parked.keep fun attempt conn heq => by
          rw [hp] at heq
          cases heq
      refine .of_racing hret (hs.other_ends hp rfl ?_ ?_ (.inr rfl) rfl (fun hsome => ?_) hparked)
      · rw [hget]
        exact List.Perm.refl _
      · intro heq
        exact hmore (Option.some.inj heq)
      · have := hs.othersErr hsome
        rw [hothers] at this
        cases this
  · cases hs'

theorem Racing.onWindow (hs : Racing windowMs isP2p n h s) (hret : s.returned = none)
    (hp : p.2.2 = .windowPassed) (hpassed : s.window ≤ s.now) :
    Follows windowMs isP2p n (p :: h) s.onWindow := by
  have hended : ∀ attempt res, Ended (p :: h) attempt res ↔ Ended h attempt res := by
    intro attempt res
    rw [ended_cons, hp]
    simp
  have hparked : Parked windowMs isP2p (p :: h) s.held s.window :=
    hs.parked.keep fun attempt conn heq => by
      rw [hp] at heq
      cases heq
  unfold Race.onWindow
  cases hheld : s.held with
  | some conn =>
    obtain ⟨q, hq, attempt, hcame, hsince⟩ := hparked.since conn hheld
    have hrelayed : isP2p conn = false := (hparked.successes attempt conn ⟨q, hq, hcame⟩).1
    have hlate : WindowPassed windowMs isP2p (p :: h) s.now :=
      ⟨q, hq, attempt, conn, hcame, hrelayed, hsince ▸ hpassed⟩
    exact .of_returned rfl (outcome_relayed hparked ⟨q, hq, hcame⟩ (.inr hlate))
  | none =>
    refine .of_racing hret ⟨?_, fun i => ?_, hs.nonempty, hs.nodup, hs.running, hs.webrtcErr,
      hs.othersErr, ?_⟩
    · simp only [hended]
      exact hs.webrtc
    · simp only [hended]
      exact hs.others i
    · rw [hheld] at hparked
      exact hparked

/-! ## Every run -/

theorem Follows.step {e : Nat × RaceEvent T} {s' : Race T} (hs : Follows windowMs isP2p n h s)
    (hstep : s.step selectOk windowMs isP2p e = some s') :
    Follows windowMs isP2p n ((s, e) :: h) s' := by
  obtain ⟨now, e⟩ := e
  unfold Race.step at hstep
  split at hstep
  · cases hstep
  · rename_i hgoes
    have hret : s.returned = none := by
      by_contra hsome
      exact hgoes (.inl (Option.isSome_iff_ne_none.mpr hsome))
    have hracing := hs.racing hret
    have hnow : Racing windowMs isP2p n h { s with now := now } :=
      ⟨hracing.webrtc, hracing.others, hracing.nonempty, hracing.nodup, hracing.running,
        hracing.webrtcErr, hracing.othersErr, hracing.parked⟩
    dsimp only at hstep
    cases e with
    | ends attempt res =>
      cases attempt with
      | webrtc =>
        dsimp only at hstep
        split at hstep
        · obtain rfl := Option.some.inj hstep
          exact hnow.onWebrtc hret rfl rfl
        · cases hstep
      | other i => exact hnow.onOther hret rfl rfl hstep
    | windowPassed =>
      dsimp only at hstep
      split at hstep
      · rename_i hpassed
        obtain rfl := Option.some.inj hstep
        exact hnow.onWindow hret rfl hpassed.2
      · cases hstep

theorem follows_of_exec (hn : 0 < n) (hx : Exec (Init windowMs n) (step selectOk windowMs isP2p) h s) :
    Follows windowMs isP2p n h s := by
  refine hx.induct (I := fun h s => Follows windowMs isP2p n h s) ?_ fun h s e s' _ hs hstep => hs.step hstep
  rintro s ⟨now, rfl⟩
  refine .of_racing rfl ⟨?_, fun i => ?_, ?_, List.nodup_range, .inl rfl, nofun, nofun, ?_⟩
  · simp [Ended]
  · simp [Ended]
  · intro hempty
    have := List.range_eq_nil.mp (Option.some.inj hempty)
    omega
  · exact ⟨fun attempt conn hended => by simp [Ended] at hended, nofun⟩

/-- An attempt that has not ended is still waited for. -/
theorem Racing.waits (hs : Racing windowMs isP2p n h s) (hret : s.returned = none)
    (hamong : attempt.among n) (hruns : ∀ res, ¬ Ended h attempt res) {now : Nat} (hnow : s.now ≤ now) :
    (s.step selectOk windowMs isP2p (now, .ends attempt res)).isSome = true := by
  have hgoes : ¬ (s.returned.isSome = true ∨ now < s.now) := by
    rintro (hsome | hearly)
    · rw [hret] at hsome
      cases hsome
    · omega
  unfold Race.step
  rw [if_neg hgoes]
  dsimp only
  cases attempt with
  | webrtc =>
    dsimp only
    rw [if_pos (hs.webrtc.mpr hruns)]
    rfl
  | other i =>
    have hmem : i ∈ s.othersFut.getD [] := (hs.others i).mpr ⟨hamong, hruns⟩
    dsimp only [Race.onOther]
    cases hothers : s.othersFut with
    | none =>
      rw [hothers] at hmem
      cases hmem
    | some attempts =>
      rw [hothers] at hmem
      have hin : i ∈ attempts := hmem
      rw [Option.bind_some, if_pos hin]
      split <;> rfl

/-- Where none is running, the race is over. -/
theorem Racing.not_allEnded (hs : Racing windowMs isP2p n h s) : ¬ AllEnded n h := by
  intro hall
  obtain hfut | hothers := hs.running
  · obtain ⟨res, hres⟩ := hall .webrtc trivial
    exact hs.webrtc.mp hfut res hres
  · obtain ⟨attempts, hattempts⟩ := Option.isSome_iff_exists.mp hothers
    cases attempts with
    | nil => exact hs.nonempty hattempts
    | cons i rest =>
      have hmem : i ∈ s.othersFut.getD [] := by
        rw [hattempts]
        exact List.mem_cons_self ..
      obtain ⟨hamong, hruns⟩ := (hs.others i).mp hmem
      obtain ⟨res, hres⟩ := hall (.other i) hamong
      exact hruns res hres

/-- Whatever the order and the times of the attempts and of the window: an error is returned only if
every attempt failed, a direct result whenever one comes, a relayed one only when no attempt is running
or the window has passed since the first, and something as soon as none is running. An attempt that is
running is waited for until then. -/
theorem race_outcome (hn : 0 < n) (hx : Exec (Init windowMs n) (step selectOk windowMs isP2p) h s) :
    (∀ e, s.returned = some (.error e) →
      ∀ attempt : Attempt, attempt.among n → ∃ e', Ended h attempt (.error e')) ∧
    (∀ attempt conn, Ended h attempt (.ok conn) → isP2p conn = true →
      ∃ conn', s.returned = some (.ok conn') ∧ isP2p conn' = true) ∧
    (∀ conn, s.returned = some (.ok conn) → (∃ attempt, Ended h attempt (.ok conn)) ∧
      (isP2p conn = false → AllEnded n h ∨ WindowPassed windowMs isP2p h s.now)) ∧
    (AllEnded n h → s.returned.isSome = true) ∧
    (s.returned = none → ∀ attempt : Attempt, attempt.among n → (∀ res, ¬ Ended h attempt res) →
      ∀ now res, s.now ≤ now → (s.step selectOk windowMs isP2p (now, .ends attempt res)).isSome = true) := by
  have hs : Follows windowMs isP2p n h s := follows_of_exec hn hx
  refine ⟨fun e he => (hs.outcome _ he).failed e rfl, fun attempt conn hended hdirect => ?_,
    fun conn hconn => ?_, fun hall => ?_, fun hret attempt hamong hruns now res hnow => ?_⟩
  · cases hret : s.returned with
    | none =>
      rw [((hs.racing hret).parked.successes attempt conn hended).1] at hdirect
      cases hdirect
    | some r =>
      obtain ⟨conn', rfl, hdirect'⟩ := (hs.outcome r hret).direct attempt conn hended hdirect
      exact ⟨conn', rfl, hdirect'⟩
  · have houtcome := hs.outcome _ hconn
    exact ⟨houtcome.came conn rfl, houtcome.relayed conn rfl⟩
  · by_contra hnone
    have hret : s.returned = none := by simpa using hnone
    exact (hs.racing hret).not_allEnded hall
  · exact (hs.racing hret).waits hret hamong hruns hnow

/-- A `select_ok` that keeps the order. -/
def inOrder : SelectOk T where
  ready rest res :=
    match res with
    | .ok conn => some (.ok (conn, rest))
    | .error e => if rest = [] then some (.error e) else none
  success rest _ := ⟨rest, List.Perm.refl rest, rfl⟩
  lastFailure _ := rfl
  failure _ _ h := if_neg h

/-- A relay is held while WebRTC and a direct attempt go on; WebRTC fails, and the direct one wins. -/
theorem race_outcome_held :
    ∃ h s, Exec (Init 1000 2) (step inOrder 1000 (fun direct => direct)) h s ∧
      (∀ direct, s.returned = some (.ok direct) → direct = false →
        AllEnded 2 h ∨ WindowPassed 1000 (fun direct => direct) h s.now) ∧
      ∃ direct, s.returned = some (.ok direct) ∧ direct = true := by
  obtain ⟨⟨h, s⟩, hr⟩ : ∃ r, trace (step inOrder 1000 (fun direct => direct))
      { now := 0, othersFut := some [0, 1], window := 1000 }
      [(10, .ends (.other 0) (.ok false)), (50, .ends .webrtc (.error "dead")),
        (100, .ends (.other 1) (.ok true))] = some r := ⟨_, rfl⟩
  have hx : Exec (Init 1000 2) (step inOrder 1000 (fun direct => direct)) (h ++ []) s :=
    Exec.trace (.start ⟨0, rfl⟩) hr
  rw [List.append_nil] at hx
  obtain ⟨-, hdirect, hrelayed, -, -⟩ := race_outcome (by decide) hx
  refine ⟨h, s, hx, fun direct hret => (hrelayed direct hret).2, hdirect (.other 1) true ?_ rfl⟩
  obtain ⟨rfl, -⟩ := Prod.mk.inj (Option.some.inj hr)
  exact ⟨_, List.mem_cons_self .., rfl⟩

end Race

end FontisRemote.WebRtc
