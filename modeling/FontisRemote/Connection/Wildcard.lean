import FontisRemote.Lib.Glob
import FontisRemote.Connection.Logon
import Mathlib.Order.WellFounded

/-!
# Patterns of the id whitelist

`wildcard_match` and `id_whitelist_allows` of `connection.rs`. The matcher walks pattern and text with one
index each and remembers the last star only: where it stands in the pattern and how much of the text it
was given. On a mismatch the star is given one character more. `toLowercase` is the Unicode mapping of
`str::to_lowercase`, about which nothing is assumed.

An earlier star is never needed again (`Walk.forget`): between two stars there are as many characters of
text as of pattern, so whatever a longer earlier star would leave for the later one, the later one can
take as well. The index of the remembered star only grows, and with it the loop ends.
-/

namespace FontisRemote.Connection

open FontisRemote.Lib

/-- `str::trim`. -/
def trim (s : List Char) : List Char :=
  ((s.dropWhile isWhiteSpace).reverse.dropWhile isWhiteSpace).reverse

namespace Wildcard

/-- What the loop keeps: the two indices, and for the last star the index behind it and the one its
remaining text begins at. -/
structure Walk where
  pi : Nat
  ti : Nat
  star : Option (Nat × Nat)
  star_le : ∀ s ∈ star, s.2 ≤ ti

def Walk.start : Walk where
  pi := 0
  ti := 0
  star := none
  star_le := fun _ hs => by cases hs

section Loop

variable (p t : List Char)

/-- What one round of the loop does, while there is text: go on, or find that there is no match. -/
def Walk.round (w : Walk) : Option Walk :=
  if p[w.pi]? = some '*' then
    some { pi := w.pi + 1, ti := w.ti, star := some (w.pi + 1, w.ti), star_le := fun _ hs => by cases hs; rfl }
  else if w.pi < p.length ∧ (p[w.pi]? = some '?' ∨ p[w.pi]? = t[w.ti]?) then
    some { w with pi := w.pi + 1, ti := w.ti + 1, star_le := fun s hs => (w.star_le s hs).trans (Nat.le_succ _) }
  else
    match w.star with
    | some (sp, st) =>
      some { pi := sp, ti := st + 1, star := some (sp, st + 1), star_le := fun _ hs => by cases hs; rfl }
    | none => none

/-- What is left: of the text behind the last star, then of the pattern. -/
def Walk.left (w : Walk) : Nat × Nat :=
  (match w.star with
    | some (_, st) => t.length - st
    | none => t.length + 1, p.length - w.pi)

theorem Walk.round_left {w w' : Walk} (hti : w.ti < t.length) (h : w.round p t = some w') :
    Prod.Lex (· < ·) (· < ·) (w'.left p t) (w.left p t) := by
  unfold Walk.round at h
  split_ifs at h with hstar hone
  · obtain ⟨hpi, -⟩ := List.getElem?_eq_some_iff.1 hstar
    cases h
    cases hs : w.star with
    | none =>
      refine Prod.Lex.left _ _ ?_
      simp only [hs]
      omega
    | some s =>
      have hle := w.star_le s hs
      simp only [Walk.left, hs]
      rcases Nat.lt_or_eq_of_le hle with hlt | heq
      · exact Prod.Lex.left _ _ (by omega)
      · rw [heq]
        exact Prod.Lex.right _ (by omega)
  · have hpi := hone.1
    cases h
    exact Prod.Lex.right _ (show p.length - (w.pi + 1) < p.length - w.pi by omega)
  · cases hs : w.star with
    | none =>
      rw [hs] at h
      cases h
    | some s =>
      have hle := w.star_le s hs
      rw [hs] at h
      cases h
      simp only [Walk.left, hs]
      exact Prod.Lex.left _ _ (by omega)

/-- `while pi < p.len() && p[pi] == '*'` -/
def skipStars (pi : Nat) : Nat :=
  if p[pi]? = some '*' then skipStars (pi + 1) else pi
termination_by p.length - pi
decreasing_by
  have := (List.getElem?_eq_some_iff.1 (by assumption)).1
  omega

/-- The loop, and what is checked once the text is used up. -/
def Walk.loop (w : Walk) : Bool :=
  if w.ti < t.length then
    match _hround : w.round p t with
    | some w' => w'.loop
    | none => false
  else decide (skipStars p w.pi = p.length)
termination_by w.left p t
decreasing_by exact Walk.round_left p t (by assumption) (by assumption)

end Loop

/-! ## What a pattern means -/

/-- A star, a question mark, and every other character for itself. -/
def element (c : Char) : Glob Char :=
  if c = '*' then .many else if c = '?' then .one else .lit c

def glob (p : List Char) : List (Glob Char) :=
  p.map element

theorem element_star : element '*' = .many := rfl

theorem element_ne_many {c : Char} (hc : c ≠ '*') : element c ≠ .many := by
  unfold element
  split_ifs <;> simp_all

theorem element_accepts_iff {c a : Char} (hc : c ≠ '*') : (element c).Accepts a ↔ c = '?' ∨ c = a := by
  unfold element
  rw [if_neg hc]
  split_ifs with hone
  · exact ⟨fun _ => Or.inl hone, fun _ => .one a⟩
  · constructor
    · intro h
      cases h
      exact Or.inr rfl
    · rintro (h | rfl)
      · exact absurd h hone
      · exact .lit _

section Walks

variable {p t : List Char} {w : Walk}

/-- The text from `j` on is what the pattern from `i` on says. -/
def MatchesFrom (p t : List Char) (i j : Nat) : Prop :=
  Glob.Matches ((glob p).drop i) (t.drop j)

/-- The last star is followed by as many characters of text as of pattern, with no star among them. -/
structure Walk.Ok (p t : List Char) (w : Walk) : Prop where
  pi_le : w.pi ≤ p.length
  ti_le : w.ti ≤ t.length
  star : ∀ sp st, w.star = some (sp, st) →
    sp ≤ w.pi ∧ w.ti + sp = w.pi + st ∧ .many ∉ ((glob p).drop sp).take (w.pi - sp)

/-- The last star can be given more. -/
def Walk.Retries (p t : List Char) (w : Walk) : Prop :=
  ∃ sp st k, w.star = some (sp, st) ∧ st < k ∧ k ≤ t.length ∧ MatchesFrom p t sp k

/-- There is a match yet: from here on, or with more for the last star. -/
def Walk.Hopeful (p t : List Char) (w : Walk) : Prop :=
  MatchesFrom p t w.pi w.ti ∨ w.Retries p t

/-- Whatever the last star is given, the pattern up to here uses up as much text as it did. -/
theorem Walk.Ok.forget (h : w.Ok p t) (hretries : w.Retries p t) :
    ∃ n, w.ti < n ∧ n ≤ t.length ∧ MatchesFrom p t w.pi n := by
  obtain ⟨sp, st, k, hs, hst, hk, hmatch⟩ := hretries
  obtain ⟨hsp, hsum, hfixed⟩ := h.star sp st hs
  have hsplit : (glob p).drop sp = ((glob p).drop sp).take (w.pi - sp) ++ (glob p).drop w.pi := by
    have hjoin := List.take_append_drop (w.pi - sp) ((glob p).drop sp)
    rw [List.drop_drop, Nat.add_sub_cancel' hsp] at hjoin
    exact hjoin.symm
  have hlen : (((glob p).drop sp).take (w.pi - sp)).length = w.pi - sp := by
    have hpi := h.pi_le
    simp only [glob, List.length_take, List.length_drop, List.length_map]
    omega
  unfold MatchesFrom at hmatch
  rw [hsplit] at hmatch
  obtain ⟨hroom, hrest⟩ := hmatch.drop_of_fixed hfixed
  rw [hlen, List.length_drop] at hroom
  rw [hlen, List.drop_drop] at hrest
  exact ⟨k + (w.pi - sp), by omega, by omega, hrest⟩

theorem matchesFrom_star {i j : Nat} (hstar : p[i]? = some '*') :
    MatchesFrom p t i j ↔ Glob.Matches (.many :: (glob p).drop (i + 1)) (t.drop j) := by
  obtain ⟨hi, hc⟩ := List.getElem?_eq_some_iff.1 hstar
  have hi' : i < (glob p).length := by simpa [glob] using hi
  have hhead : (glob p)[i] = .many := by simp [glob, hc, element_star]
  rw [MatchesFrom, List.drop_eq_getElem_cons hi', hhead]

/-- One character against one element that is no star. -/
theorem matchesFrom_succ {i j : Nat} (hi : i < p.length) (hstar : p[i]? ≠ some '*') (hj : j < t.length) :
    MatchesFrom p t i j ↔ (p[i]? = some '?' ∨ p[i]? = t[j]?) ∧ MatchesFrom p t (i + 1) (j + 1) := by
  have hi' : i < (glob p).length := by simpa [glob] using hi
  have hc : p[i] ≠ '*' := fun heq => hstar (by rw [List.getElem?_eq_getElem hi, heq])
  have hhead : (glob p)[i] = element p[i] := by simp [glob]
  rw [MatchesFrom, List.drop_eq_getElem_cons hi', List.drop_eq_getElem_cons hj, hhead,
    Glob.matches_cons_cons_iff (element_ne_many hc), element_accepts_iff hc,
    List.getElem?_eq_getElem hi, List.getElem?_eq_getElem hj, Option.some.injEq, Option.some.injEq]
  rfl

theorem not_matchesFrom_length {i j : Nat} (hi : p.length ≤ i) (hj : j < t.length) :
    ¬MatchesFrom p t i j := by
  have hnil : (glob p).drop i = [] := List.drop_eq_nil_of_le (by simpa [glob] using hi)
  rw [MatchesFrom, hnil, Glob.matches_nil_iff]
  intro h
  have hlen := congrArg List.length h
  rw [List.length_drop, List.length_nil] at hlen
  omega

/-! ## One round -/

section Rounds

variable (hti : w.ti < t.length)

include hti

/-- After a mismatch the last star must take more. -/
theorem Walk.hopeful_back {w' : Walk} {sp st : Nat} (hmiss : ¬MatchesFrom p t w.pi w.ti)
    (hs : w.star = some (sp, st)) (hpi : w'.pi = sp) (hti' : w'.ti = st + 1)
    (hs' : w'.star = some (sp, st + 1)) : w'.Hopeful p t ↔ w.Hopeful p t := by
  constructor
  · rintro (hmatch | ⟨sp', st', k, hs'', hst, hk, hmatch⟩)
    · rw [hpi, hti'] at hmatch
      have hst := w.star_le _ hs
      exact Or.inr ⟨sp, st, st + 1, hs, Nat.lt_succ_self st, by omega, hmatch⟩
    · rw [hs'] at hs''
      cases hs''
      exact Or.inr ⟨sp, st, k, hs, by omega, hk, hmatch⟩
  · rintro (hmatch | ⟨sp', st', k, hs'', hst, hk, hmatch⟩)
    · exact absurd hmatch hmiss
    · rw [hs] at hs''
      cases hs''
      rcases Nat.lt_or_eq_of_le (Nat.succ_le_of_lt hst) with hlt | heq
      · exact Or.inr ⟨sp, st + 1, k, hs', hlt, hk, hmatch⟩
      · left
        rw [hpi, hti']
        rwa [← heq] at hmatch

variable (h : w.Ok p t)

include h

/-- At a star: it is the last one from now on, and makes up for the one before. -/
theorem Walk.hopeful_star {w' : Walk} (hstar : p[w.pi]? = some '*') (hpi : w'.pi = w.pi + 1)
    (hti' : w'.ti = w.ti) (hs : w'.star = some (w.pi + 1, w.ti)) : w'.Hopeful p t ↔ w.Hopeful p t := by
  have hmatches : MatchesFrom p t w.pi w.ti ↔
      ∃ k, w.ti ≤ k ∧ k ≤ t.length ∧ MatchesFrom p t (w.pi + 1) k := by
    rw [matchesFrom_star hstar, Glob.matches_many_iff, List.length_drop]
    constructor
    · rintro ⟨k, hk, hrest⟩
      rw [List.drop_drop] at hrest
      exact ⟨w.ti + k, by omega, by omega, hrest⟩
    · rintro ⟨k, hle, hk, hrest⟩
      refine ⟨k - w.ti, by omega, ?_⟩
      rwa [List.drop_drop, Nat.add_sub_cancel' hle]
  constructor
  · rintro (hmatch | ⟨sp, st, k, hs', hst, hk, hmatch⟩)
    · rw [hpi, hti'] at hmatch
      exact Or.inl (hmatches.2 ⟨w.ti, le_rfl, hti.le, hmatch⟩)
    · rw [hs] at hs'
      cases hs'
      exact Or.inl (hmatches.2 ⟨k, hst.le, hk, hmatch⟩)
  · intro hhope
    have hmatch : MatchesFrom p t w.pi w.ti := by
      rcases hhope with hmatch | hretries
      · exact hmatch
      · obtain ⟨n, hn, hlen, hmatch⟩ := h.forget hretries
        rw [matchesFrom_star hstar] at hmatch ⊢
        have hdrop : t.drop n = (t.drop w.ti).drop (n - w.ti) := by
          rw [List.drop_drop, Nat.add_sub_cancel' hn.le]
        rw [hdrop] at hmatch
        exact Glob.matches_many_of_drop hmatch
    obtain ⟨k, hle, hk, hrest⟩ := hmatches.1 hmatch
    rcases Nat.lt_or_eq_of_le hle with hlt | heq
    · exact Or.inr ⟨w.pi + 1, w.ti, k, hs, hlt, hk, hrest⟩
    · left
      rwa [hpi, hti', heq]

/-- A round keeps the place of the star and the matches there are yet; it ends the loop when there are
none. -/
theorem Walk.round_spec :
    (∀ w', w.round p t = some w' → w'.Ok p t ∧ (w'.Hopeful p t ↔ w.Hopeful p t)) ∧
      (w.round p t = none → ¬w.Hopeful p t) := by
  unfold Walk.round
  split_ifs with hstar hone
  · refine ⟨fun w' hw' => ?_, fun hnone => by cases hnone⟩
    obtain ⟨hpi, -⟩ := List.getElem?_eq_some_iff.1 hstar
    cases hw'
    refine ⟨⟨hpi, h.ti_le, ?_⟩, Walk.hopeful_star hti h hstar rfl rfl rfl⟩
    intro sp st hs
    cases hs
    exact ⟨le_rfl, Nat.add_comm _ _, by simp⟩
  · refine ⟨fun w' hw' => ?_, fun hnone => by cases hnone⟩
    have hone' : MatchesFrom p t w.pi w.ti ↔ MatchesFrom p t (w.pi + 1) (w.ti + 1) := by
      rw [matchesFrom_succ hone.1 hstar hti]
      exact and_iff_right hone.2
    cases hw'
    refine ⟨⟨hone.1, hti, ?_⟩, or_congr hone'.symm Iff.rfl⟩
    intro sp st hs
    obtain ⟨hsp, hsum, hfixed⟩ := h.star sp st hs
    refine ⟨hsp.trans (Nat.le_succ _), by dsimp only; omega, ?_⟩
    have hstep : w.pi + 1 - sp = w.pi - sp + 1 := by omega
    have hlt : w.pi - sp < ((glob p).drop sp).length := by
      have := hone.1
      simp only [glob, List.length_drop, List.length_map]
      omega
    dsimp only
    rw [hstep, List.take_succ_eq_append_getElem hlt, List.mem_append, not_or]
    refine ⟨hfixed, ?_⟩
    have hc : p[w.pi] ≠ '*' := fun heq => hstar (by rw [List.getElem?_eq_getElem hone.1, heq])
    have hadd : sp + (w.pi - sp) = w.pi := Nat.add_sub_cancel' hsp
    simp only [glob, List.getElem_drop, List.getElem_map, hadd, List.mem_singleton]
    exact (element_ne_many hc).symm
  · have hmiss : ¬MatchesFrom p t w.pi w.ti := by
      by_cases hpi : w.pi < p.length
      · rw [matchesFrom_succ hpi hstar hti]
        exact fun hmatch => hone ⟨hpi, hmatch.1⟩
      · exact not_matchesFrom_length (not_lt.1 hpi) hti
    cases hs : w.star with
    | none =>
      refine ⟨fun w' hw' => (by cases hw'), fun _ => ?_⟩
      rintro (hmatch | ⟨sp, st, k, hs', -⟩)
      · exact hmiss hmatch
      · rw [hs] at hs'
        cases hs'
    | some s =>
      obtain ⟨sp, st⟩ := s
      refine ⟨fun w' hw' => ?_, fun hnone => by cases hnone⟩
      obtain ⟨hsp, hsum, hfixed⟩ := h.star sp st hs
      have hst := w.star_le _ hs
      cases hw'
      refine ⟨⟨hsp.trans h.pi_le, by dsimp only at hst ⊢; omega, ?_⟩,
        Walk.hopeful_back hti hmiss hs rfl rfl rfl⟩
      intro sp' st' hs'
      cases hs'
      exact ⟨le_rfl, Nat.add_comm _ _, by simp⟩

end Rounds

/-! ## The whole loop -/

theorem skipStars_eq_length_iff (i : Nat) (hi : i ≤ p.length) :
    skipStars p i = p.length ↔ ∀ g ∈ (glob p).drop i, g = .many := by
  induction i using skipStars.induct p with
  | case1 i hstar ih =>
    obtain ⟨hlt, hc⟩ := List.getElem?_eq_some_iff.1 hstar
    have hlt' : i < (glob p).length := by simpa [glob] using hlt
    have hhead : (glob p)[i] = .many := by simp [glob, hc, element_star]
    rw [skipStars, if_pos hstar, ih hlt, List.drop_eq_getElem_cons hlt', hhead]
    simp
  | case2 i hstar =>
    rw [skipStars, if_neg hstar]
    constructor
    · rintro rfl
      rw [List.drop_eq_nil_of_le (by simp [glob])]
      simp
    · intro hall
      by_contra hne
      have hlt : i < p.length := by omega
      have hlt' : i < (glob p).length := by simpa [glob] using hlt
      have hc : p[i] ≠ '*' := fun heq => hstar (by rw [List.getElem?_eq_getElem hlt, heq])
      refine element_ne_many hc ?_
      rw [List.drop_eq_getElem_cons hlt'] at hall
      have hhead := hall _ (List.mem_cons_self ..)
      simpa [glob] using hhead

/-- With the text used up, no star can take more. -/
theorem Walk.Ok.hopeful_end (h : w.Ok p t) (hti : ¬w.ti < t.length) :
    w.Hopeful p t ↔ skipStars p w.pi = p.length := by
  have hend : w.ti = t.length := le_antisymm h.ti_le (not_lt.1 hti)
  have hnil : t.drop w.ti = [] := by rw [hend, List.drop_length]
  rw [skipStars_eq_length_iff _ h.pi_le, ← Glob.matches_text_nil_iff, ← hnil]
  constructor
  · rintro (hmatch | hretries)
    · exact hmatch
    · obtain ⟨n, hn, hlen, -⟩ := h.forget hretries
      omega
  · exact Or.inl

theorem Walk.loop_iff (h : w.Ok p t) : w.loop p t = true ↔ w.Hopeful p t := by
  induction w using Walk.loop.induct p t with
  | case1 w hti w' hround ih =>
    obtain ⟨hok, hhope⟩ := (Walk.round_spec hti h).1 w' hround
    rw [Walk.loop, if_pos hti]
    split
    · next w'' hw'' =>
      rw [hround] at hw''
      cases hw''
      rw [ih hok, hhope]
    · next hnone =>
      rw [hround] at hnone
      cases hnone
  | case2 w hti hround =>
    have hno := (Walk.round_spec hti h).2 hround
    rw [Walk.loop, if_pos hti]
    split
    · next w' hw' =>
      rw [hround] at hw'
      cases hw'
    · simp [hno]
  | case3 w hti =>
    rw [Walk.loop, if_neg hti, decide_eq_true_iff, h.hopeful_end hti]

end Walks

theorem Walk.start_ok (p t : List Char) : Walk.start.Ok p t :=
  ⟨Nat.zero_le _, Nat.zero_le _, fun _ _ hs => by cases hs⟩

theorem Walk.start_loop_iff (p t : List Char) :
    Walk.start.loop p t = true ↔ Glob.Matches (glob p) t := by
  rw [Walk.loop_iff (Walk.start_ok p t)]
  constructor
  · rintro (hmatch | ⟨sp, st, k, hs, -⟩)
    · exact hmatch
    · cases hs
  · exact Or.inl

/-- The rounds of a run of the loop, for as long as there is text. -/
def Rounds (p t : List Char) (walks : Nat → Walk) : Prop :=
  ∀ n, (walks n).ti < t.length ∧ (walks n).round p t = some (walks (n + 1))

theorem not_rounds (p t : List Char) (walks : Nat → Walk) : ¬Rounds p t walks := by
  intro h
  have hwf : WellFounded (Prod.Lex (· < · : Nat → Nat → Prop) (· < · : Nat → Nat → Prop)) :=
    WellFounded.prod_lex wellFounded_lt wellFounded_lt
  refine (wellFounded_iff_isEmpty_descending_chain.1 hwf).elim ⟨fun n => (walks n).left p t, fun n => ?_⟩
  exact Walk.round_left p t (h n).1 (h n).2

end Wildcard

section Match

variable (toLowercase : List Char → List Char)

def wildcardMatch (pattern text : List Char) : Bool :=
  Wildcard.Walk.start.loop (toLowercase (trim pattern)) (toLowercase (trim text))

/-- What is before the first `@`. -/
def bareId (myId : List Char) : List Char :=
  myId.takeWhile (· != '@')

def idWhitelistAllows (idWhitelist : List (List Char)) (myId : List Char) : Bool :=
  if idWhitelist = [] then true
  else idWhitelist.any fun x =>
    wildcardMatch toLowercase x myId || wildcardMatch toLowercase x (bareId myId)

/-- `wildcard_match` is glob matching, and no run of its loop goes on for ever. -/
theorem wildcardMatch_glob (pattern text : List Char) :
    (wildcardMatch toLowercase pattern text = true ↔
      Glob.Matches (Wildcard.glob (toLowercase (trim pattern))) (toLowercase (trim text))) ∧
    ∀ walks, ¬Wildcard.Rounds (toLowercase (trim pattern)) (toLowercase (trim text)) walks :=
  ⟨Wildcard.Walk.start_loop_iff _ _, Wildcard.not_rounds _ _⟩

/-- Who is let in: everyone, or whose id, with its server or without, one of the patterns matches. -/
theorem idWhitelistAllows_iff (idWhitelist : List (List Char)) (myId : List Char) :
    idWhitelistAllows toLowercase idWhitelist myId = true ↔
      idWhitelist = [] ∨ ∃ x ∈ idWhitelist, ∃ id ∈ [myId, bareId myId],
        Glob.Matches (Wildcard.glob (toLowercase (trim x))) (toLowercase (trim id)) := by
  unfold idWhitelistAllows wildcardMatch
  split_ifs with hnil
  · exact iff_of_true rfl (Or.inl hnil)
  · simp only [List.any_eq_true, Bool.or_eq_true, Wildcard.Walk.start_loop_iff, hnil, false_or,
      List.mem_cons, List.not_mem_nil, or_false, exists_eq_or_imp, exists_eq_left]

end Match

end FontisRemote.Connection
