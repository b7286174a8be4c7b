import Mathlib.Algebra.Order.Ring.Int
import Mathlib.Data.List.Basic

/-!
# Decoders that are fed a stream in pieces

A decoder looks at what has arrived, and either takes an item off the front of it, asks for more, or
fails. `drain` polls it until it asks for more, `feed` hands it one piece of the stream after the other.

`Follows` is the rule for such loops. A relation between the items still to come, the decoder, what it
holds and the rest of the stream is given, which a new piece and a poll keep; then the items that come
out are the first of those to come, wherever the stream was cut (`feed_follows`).
-/

namespace FontisRemote.Lib

structure Decoder (σ β ι ε : Type) where
  decode : σ → List β → Except ε (Option ι) × σ × List β
  /-- What a poll that returns an item makes smaller. -/
  size : σ → List β → Nat
  decode_lt : ∀ {s b i s' b'}, decode s b = (.ok (some i), s', b') → size s' b' < size s b

namespace Decoder

variable {σ β ι ε : Type} (d : Decoder σ β ι ε)

/-- Poll until there is no item, or an error. -/
def drain (s : σ) (b : List β) : List ι × Except ε Unit × σ × List β :=
  match _h : d.decode s b with
  | (.error err, s', b') => ([], .error err, s', b')
  | (.ok none, s', b') => ([], .ok (), s', b')
  | (.ok (some i), s', b') =>
    let (is, res, s', b') := drain s' b'
    (i :: is, res, s', b')
termination_by d.size s b
decreasing_by exact d.decode_lt ‹_›

/-- Poll after each piece that arrives. -/
def feed (s : σ) (b : List β) : List (List β) → List ι × Except ε Unit × σ × List β
  | [] => ([], .ok (), s, b)
  | c :: cs =>
    match d.drain s (b ++ c) with
    | (is, .error err, s, b) => (is, .error err, s, b)
    | (is, .ok (), s, b) =>
      let (js, res, s, b) := feed s b cs
      (is ++ js, res, s, b)

variable {d}

theorem drain_of_none {s s' : σ} {b b' : List β} (h : d.decode s b = (.ok none, s', b')) :
    d.drain s b = ([], .ok (), s', b') := by
  rw [drain]
  split
  · next heq => rw [h] at heq; cases heq
  · next heq =>
    rw [h] at heq
    cases heq
    rfl
  · next heq => rw [h] at heq; cases heq

theorem drain_of_some {s s' : σ} {b b' : List β} {i : ι} (h : d.decode s b = (.ok (some i), s', b')) :
    d.drain s b = (i :: (d.drain s' b').1, (d.drain s' b').2) := by
  rw [drain]
  split
  · next heq => rw [h] at heq; cases heq
  · next heq => rw [h] at heq; cases heq
  · next heq =>
    rw [h] at heq
    cases heq
    rfl

variable (d)

/-- A relation between the items to come, the decoder, what it holds and what has not arrived, and what
is known when the decoder asks for more. -/
structure Follows (R : List ι → σ → List β → List β → Prop) (Waits : List ι → σ → List β → Prop) : Prop where
  arrive : ∀ {is s b c rest}, R is s b (c ++ rest) → R is s (b ++ c) rest
  decode : ∀ {is s b rest}, R is s b rest →
    (∃ i js s' b', is = i :: js ∧ d.decode s b = (.ok (some i), s', b') ∧ R js s' b' rest) ∨
      ∃ s' b', d.decode s b = (.ok none, s', b') ∧ R is s' b' rest ∧ Waits is s' b'

variable {d} {R : List ι → σ → List β → List β → Prop} {Waits : List ι → σ → List β → Prop}

theorem drain_follows (h : d.Follows R Waits) {is : List ι} {s : σ} {b rest : List β} (hR : R is s b rest) :
    ∃ done todo s' b', is = done ++ todo ∧ d.drain s b = (done, .ok (), s', b') ∧ R todo s' b' rest ∧
      Waits todo s' b' := by
  induction hn : d.size s b using Nat.strong_induction_on generalizing is s b with
  | _ n ih =>
    rcases h.decode hR with ⟨i, js, s', b', rfl, hdec, hR'⟩ | ⟨s', b', hdec, hR', hw⟩
    · have hlt : d.size s' b' < n := hn ▸ d.decode_lt hdec
      obtain ⟨done, todo, s'', b'', rfl, hdrain, hR'', hw⟩ := ih _ hlt hR' rfl
      exact ⟨i :: done, todo, s'', b'', rfl, by rw [drain_of_some hdec, hdrain], hR'', hw⟩
    · exact ⟨[], is, s', b', rfl, drain_of_none hdec, hR', hw⟩

/-- However the stream is cut, what comes out are the first of the items to come. -/
theorem feed_follows (h : d.Follows R Waits) (cs : List (List β)) {is : List ι} {s : σ} {b rest : List β}
    (hR : R is s b (cs.flatten ++ rest)) (hw : Waits is s b) :
    ∃ done todo s' b', is = done ++ todo ∧ d.feed s b cs = (done, .ok (), s', b') ∧ R todo s' b' rest ∧
      Waits todo s' b' := by
  induction cs generalizing is s b with
  | nil => exact ⟨[], is, s, b, rfl, rfl, hR, hw⟩
  | cons c cs ih =>
    rw [List.flatten_cons, List.append_assoc] at hR
    obtain ⟨done, todo, s', b', rfl, hdrain, hR', hw'⟩ := drain_follows h (h.arrive hR)
    obtain ⟨done', todo', s'', b'', rfl, hfeed, hR'', hw''⟩ := ih hR' hw'
    refine ⟨done ++ done', todo', s'', b'', (List.append_assoc ..).symm, ?_, hR'', hw''⟩
    simp only [feed, hdrain, hfeed]

end Decoder

end FontisRemote.Lib
