import FontisRemote.Config.PasswordSecurity
import FontisRemote.Lib.Run

/-!
# Secrets over saves and loads

A secret that is saved and loaded any number of times, in any order. One that does not look encrypted is
encrypted by the first save; from then on every load gives it back and asks for no further store
(`Scheme.settles`). One that looks encrypted is taken for what it looks like: no save ever encrypts it
(`Scheme.untouched`).
-/

namespace FontisRemote.Config

open FontisRemote.Lib
open FontisRemote.Transport (Bytes Key Nonce KEYBYTES NONCEBYTES)

/-! ## Saving and loading in general -/

/-- How a value is saved, under a fresh nonce, and loaded, with the key to fall back on: what was loaded,
whether it was decrypted, and whether it should be stored again. -/
structure Scheme (V : Type) where
  save : Nonce → V → V
  load : Option Bytes → V → V × Bool × Bool

/-- What stands in the file and what is held in memory. -/
structure Secret (V : Type) where
  file : V
  value : V

inductive Cycle
  | save (nonce : Nonce)
  | load (pk : Option Bytes)

def Cycle.isSave : Cycle → Bool
  | .save _ => true
  | .load _ => false

namespace Scheme

variable {V : Type} (sch : Scheme V)

def step (k : Secret V) : Cycle → Option (Secret V)
  | .save nonce => some { k with file := sch.save nonce k.value }
  | .load pk => some { k with value := (sch.load pk k.file).1 }

/-- The value in clear, as it was typed or found in an old file. -/
def Init (x : V) (k : Secret V) : Prop :=
  k = ⟨x, x⟩

/-- Every load gives the value back; from the first save on the file holds one of the sealed forms, and no
load asks for another store. -/
structure Settles (sealedAs : Nonce → V) (x : V) (history : List (Secret V × Cycle)) (k : Secret V) : Prop where
  loaded : ∀ p ∈ history, ∀ pk, p.2 = .load pk → (sch.load pk p.1.file).1 = x
  saved : (∃ p ∈ history, p.2.isSave = true) → (∃ nonce, k.file = sealedAs nonce) ∧ k.file ≠ x
  quiet : ∀ newer older c pk, history = newer ++ (c, .load pk) :: older →
    (∃ p ∈ older, p.2.isSave = true) → (sch.load pk c.file).2.2 = false

/-- The value stays in the file as it is, and every load gives it back and asks for no store. -/
structure Untouched (x : V) (history : List (Secret V × Cycle)) (k : Secret V) : Prop where
  file : k.file = x
  loaded : ∀ p ∈ history, ∀ pk, p.2 = .load pk → sch.load pk p.1.file = (x, false, false)

variable {sch} {sealedAs : Nonce → V} {x : V} {history : List (Secret V × Cycle)} {k : Secret V}

/-- The value is what is held, and the file holds it in clear or, once it was saved, sealed. -/
structure Inv (sealedAs : Nonce → V) (x : V) (history : List (Secret V × Cycle)) (k : Secret V) : Prop where
  value : k.value = x
  file : (k.file = x ∧ ∀ p ∈ history, p.2.isSave = false) ∨ ∃ nonce, k.file = sealedAs nonce

section Rules

variable (hclear : ∀ pk, sch.load pk x = (x, false, true)) (hsave : ∀ nonce, sch.save nonce x = sealedAs nonce)
  (hload : ∀ nonce pk, sch.load pk (sealedAs nonce) = (x, true, false))

include hclear hload in
/-- What a load finds. -/
theorem Inv.load (h : Inv sealedAs x history k) (pk : Option Bytes) :
    (sch.load pk k.file).1 = x ∧
      ((∃ p ∈ history, p.2.isSave = true) → (sch.load pk k.file).2.2 = false) := by
  rcases h.file with ⟨hfile, hnone⟩ | ⟨nonce, hfile⟩
  · rw [hfile, hclear pk]
    refine ⟨rfl, ?_⟩
    rintro ⟨p, hp, hsaved⟩
    rw [hnone p hp] at hsaved
    cases hsaved
  · rw [hfile, hload nonce pk]
    exact ⟨rfl, fun _ => rfl⟩

include hclear hsave hload

theorem inv_of_exec (hx : Exec (Init x) sch.step history k) : Inv sealedAs x history k := by
  induction hx with
  | start hinit =>
    rw [hinit]
    exact ⟨rfl, Or.inl ⟨rfl, fun p hp => by cases hp⟩⟩
  | @snoc history k k' e hx hstep ih =>
    cases e with
    | save nonce =>
      cases hstep
      refine ⟨ih.value, Or.inr ⟨nonce, ?_⟩⟩
      change sch.save nonce k.value = _
      rw [ih.value, hsave]
    | load pk =>
      cases hstep
      refine ⟨(ih.load hclear hload pk).1, ih.file.imp_left fun ⟨hfile, hnone⟩ => ⟨hfile, fun p hp => ?_⟩⟩
      rcases List.mem_cons.1 hp with rfl | hp
      · rfl
      · exact hnone p hp

theorem settles (hx : Exec (Init x) sch.step history k) (hne : ∀ nonce, sealedAs nonce ≠ x) :
    Settles sch sealedAs x history k := by
  refine ⟨?_, ?_, ?_⟩
  · rintro p hp pk -
    obtain ⟨older, hpast, -⟩ := hx.mem hp
    exact ((inv_of_exec hclear hsave hload hpast).load hclear hload pk).1
  · rintro ⟨p, hp, hsaved⟩
    rcases (inv_of_exec hclear hsave hload hx).file with ⟨-, hnone⟩ | ⟨nonce, hfile⟩
    · rw [hnone p hp] at hsaved
      cases hsaved
    · exact ⟨⟨nonce, hfile⟩, hfile ▸ hne nonce⟩
  · intro newer older c pk hh hsaved
    exact ((inv_of_exec hclear hsave hload (hx.past hh).1).load hclear hload pk).2 hsaved

end Rules

/-- A value that is saved as it is, and that no load of the run opens, stays where it is. -/
theorem untouched (hsave : ∀ nonce, sch.save nonce x = x) (hx : Exec (Init x) sch.step history k)
    (hload : ∀ p ∈ history, ∀ pk, p.2 = .load pk → sch.load pk x = (x, false, false)) :
    Untouched sch x history k ∧ k.value = x := by
  induction hx with
  | start hinit =>
    rw [hinit]
    exact ⟨⟨rfl, fun p hp => by cases hp⟩, rfl⟩
  | @snoc history k k' e hx hstep ih =>
    obtain ⟨⟨hfile, hloaded⟩, hvalue⟩ := ih fun p hp => hload p (List.mem_cons_of_mem _ hp)
    cases e with
    | save nonce =>
      cases hstep
      refine ⟨⟨?_, fun p hp pk hpk => ?_⟩, hvalue⟩
      · change sch.save nonce k.value = x
        rw [hvalue, hsave]
      · rcases List.mem_cons.1 hp with rfl | hp
        · cases hpk
        · exact hloaded p hp pk hpk
    | load pk =>
      cases hstep
      have hthis : sch.load pk k.file = (x, false, false) := by
        rw [hfile]
        exact hload _ (List.mem_cons_self ..) pk rfl
      refine ⟨⟨hfile, fun p hp pk' hpk => ?_⟩, congrArg Prod.fst hthis⟩
      rcases List.mem_cons.1 hp with rfl | hp
      · cases hpk
        exact hthis
      · exact hloaded p hp pk' hpk

/-- Both together, for a value of which one can tell whether it has the shape of a sealed one. -/
theorem kept {shape : Bool} {Fails : Option Bytes → Prop}
    (hclear : shape = false → ∀ nonce, sch.save nonce x = sealedAs nonce)
    (hshape : shape = true → ∀ nonce, sch.save nonce x = x)
    (horiginal : ∀ pk, shape = false ∨ Fails pk → sch.load pk x = (x, false, !shape))
    (hsealed : ∀ nonce pk, sch.load pk (sealedAs nonce) = (x, true, false))
    (hne : shape = false → ∀ nonce, sealedAs nonce ≠ x) (hx : Exec (Init x) sch.step history k) :
    (shape = false → Settles sch sealedAs x history k) ∧
      (shape = true → (∀ p ∈ history, ∀ pk, p.2 = .load pk → Fails pk) → Untouched sch x history k) := by
  constructor
  · rintro rfl
    exact settles (fun pk => horiginal pk (Or.inl rfl)) (hclear rfl) hsealed hx (hne rfl)
  · rintro rfl hfails
    exact (untouched (hshape rfl) hx fun p hp pk hpk => horiginal pk (Or.inr (hfails p hp pk hpk))).1

end Scheme

/-! ## What is stored -/

section Sealed

variable (lib : Library) (m : Machine)

/-- The format byte, the nonce and the ciphertext. -/
def payload (x : Bytes) (nonce : Nonce) : Bytes :=
  FORMAT_V1 :: (nonce.bytes ++ lib.secretboxSeal x nonce (keyOf m.uuid))

/-- A value encrypted under a nonce, with its version. -/
def sealedStr (x : Bytes) (nonce : Nonce) : Str :=
  PASSWORD_ENC_VERSION.append (lib.base64Encode (payload lib m x nonce))

variable {lib m} (h : lib.Lawful) {x : Bytes}

theorem version_bytes : PASSWORD_ENC_VERSION.bytes = encVersion := rfl

theorem encrypt_eq (hx : x ≠ []) (nonce : Nonce) :
    encrypt lib m x nonce = some (lib.base64Encode (payload lib m x nonce)) := by
  rw [encrypt, if_pos hx]
  rfl

theorem drop_sealed (x : Bytes) (nonce : Nonce) : (sealedStr lib m x nonce).bytes.drop VERSION_LEN =
    (lib.base64Encode (payload lib m x nonce)).bytes := rfl

theorem sealed_version (x : Bytes) (nonce : Nonce) :
    encVersion.isPrefixOf (sealedStr lib m x nonce).bytes = true := rfl

include h

theorem length_payload (x : Bytes) (nonce : Nonce) :
    (payload lib m x nonce).length = 1 + NONCEBYTES + (x.length + MACBYTES) := by
  simp only [payload, List.length_cons, List.length_append, nonce.length_eq, h.length_seal]
  omega

theorem encoded_ne_nil (x : Bytes) (nonce : Nonce) : (lib.base64Encode (payload lib m x nonce)).bytes ≠ [] := by
  intro hnil
  have hlen := h.length_encode (payload lib m x nonce)
  rw [hnil, length_payload h, List.length_nil, MACBYTES] at hlen
  omega

theorem sealed_length (x : Bytes) (nonce : Nonce) : VERSION_LEN < (sealedStr lib m x nonce).bytes.length := by
  have hpos := List.length_pos_iff.2 (encoded_ne_nil h (m := m) x nonce)
  change 2 < (encVersion ++ (lib.base64Encode (payload lib m x nonce)).bytes).length
  rw [List.length_append, show encVersion.length = 2 from rfl]
  omega

theorem isEncrypted_sealed (x : Bytes) (nonce : Nonce) :
    isEncrypted lib (sealedStr lib m x nonce).bytes = true := by
  have hlen := sealed_length h (m := m) x nonce
  have hshort : ¬(decide ((sealedStr lib m x nonce).bytes.length ≤ VERSION_LEN) ||
      !encVersion.isPrefixOf (sealedStr lib m x nonce).bytes) = true := by
    rw [sealed_version, decide_eq_false (by omega)]
    decide
  rw [isEncrypted, if_neg hshort, drop_sealed, h.decode_encode]
  simp only [length_payload h, decide_eq_true_eq]
  omega

/-- What was sealed opens again, whatever key there is to fall back on. -/
theorem symmetricCrypt_payload (x : Bytes) (nonce : Nonce) (pk : Option Bytes) :
    symmetricCrypt lib m (payload lib m x nonce) (.decrypt pk) = some x := by
  have hlen : 1 + NONCEBYTES + MACBYTES ≤ (payload lib m x nonce).length := by
    rw [length_payload h]
    omega
  have htake : (payload lib m x nonce).drop 1 = nonce.bytes ++ lib.secretboxSeal x nonce (keyOf m.uuid) := rfl
  have hnonce : payloadNonce (payload lib m x nonce) hlen = nonce := by
    have hbytes : (payloadNonce (payload lib m x nonce) hlen).bytes = nonce.bytes := by
      simp only [payloadNonce, htake]
      rw [← nonce.length_eq, List.take_left]
    cases nonce
    simpa [payloadNonce] using hbytes
  have hdrop : (payload lib m x nonce).drop (1 + NONCEBYTES) = lib.secretboxSeal x nonce (keyOf m.uuid) := by
    rw [← List.drop_drop, htake, ← nonce.length_eq, List.drop_left]
  have hopen : openSecretboxPayload lib (payload lib m x nonce) (keyOf m.uuid) = some x := by
    rw [openSecretboxPayload, dif_pos ⟨rfl, hlen⟩, hnonce, hdrop, h.open_seal]
  simp only [symmetricCrypt, hopen]

theorem decrypt_sealed (x : Bytes) (nonce : Nonce) (pk : Option Bytes) :
    decrypt lib m ((sealedStr lib m x nonce).bytes.drop VERSION_LEN) pk = some x := by
  rw [drop_sealed, decrypt, if_pos (encoded_ne_nil h x nonce), h.decode_encode, Option.bind_some,
    symmetricCrypt_payload h]

/-- Nothing opens that is shorter than a tag. -/
theorem openSecretboxPayload_short {data : Bytes} (hshort : data.length < MACBYTES) (key : Key) :
    openSecretboxPayload lib data key = none := by
  rw [openSecretboxPayload, dif_neg (by omega), h.open_short _ _ _ hshort]

/-- What begins like an encrypted value and is none does not decrypt. -/
theorem decrypt_clear (hlen : VERSION_LEN < x.length) (hversion : encVersion.isPrefixOf x = true)
    (hx : isEncrypted lib x = false) (pk : Option Bytes) : decrypt lib m (x.drop VERSION_LEN) pk = none := by
  have hlong : ¬(decide (x.length ≤ VERSION_LEN) || !encVersion.isPrefixOf x) = true := by
    rw [hversion, decide_eq_false (by omega)]
    decide
  rw [isEncrypted, if_neg hlong] at hx
  unfold decrypt
  split_ifs
  · cases hdecoded : lib.base64Decode (x.drop VERSION_LEN) with
    | none => rfl
    | some decoded =>
      rw [hdecoded] at hx
      have hshort : decoded.length < MACBYTES := not_le.1 (of_decide_eq_false hx)
      simp only [Option.bind_some, symmetricCrypt, openSecretboxPayload_short h hshort]
      split_ifs
      · rfl
      · cases pk with
        | none => rfl
        | some pk =>
          dsimp only
          split_ifs <;> rfl
  · rfl

end Sealed

/-! ## The two schemes -/

def strScheme (lib : Library) (m : Machine) (maxLen : Nat) : Scheme Str where
  save nonce s := encryptStrOrOriginal lib m s PASSWORD_ENC_VERSION maxLen nonce
  load pk s := decryptStrOrOriginal lib m s PASSWORD_ENC_VERSION pk

def vecScheme (lib : Library) (m : Machine) (maxLen : Nat) : Scheme Bytes where
  save nonce v := encryptVecOrOriginal lib m v PASSWORD_ENC_VERSION maxLen nonce
  load pk v := decryptVecOrOriginal lib m v PASSWORD_ENC_VERSION pk

section Strings

variable {lib : Library} {m : Machine} {maxLen : Nat} {x : Str}

theorem fromUtf8Lossy_valid (x : Str) : fromUtf8Lossy lib x.bytes = x := by
  rw [fromUtf8Lossy, dif_pos (fromUtf8_iff.2 x.valid)]

theorem encryptStr_encrypted (hx : isEncrypted lib x.bytes = true) (version : Str) (nonce : Nonce) :
    encryptStrOrOriginal lib m x version maxLen nonce = x := by
  rw [encryptStrOrOriginal, if_pos hx]

theorem encryptStr_clear (hne : x.bytes ≠ []) (hmax : x.charCount ≤ maxLen)
    (hx : isEncrypted lib x.bytes = false) (nonce : Nonce) :
    encryptStrOrOriginal lib m x PASSWORD_ENC_VERSION maxLen nonce = sealedStr lib m x.bytes nonce := by
  rw [encryptStrOrOriginal, if_neg (by rw [hx]; decide), if_neg (by omega), if_pos version_bytes, encrypt_eq hne]
  rfl

/-- A value that does not decrypt is loaded as it is. -/
theorem decryptStr_original (pk : Option Bytes)
    (hfails : VERSION_LEN < x.bytes.length → encVersion.isPrefixOf x.bytes = true →
      decrypt lib m (x.bytes.drop VERSION_LEN) pk = none) :
    decryptStrOrOriginal lib m x PASSWORD_ENC_VERSION pk =
      (x, false, decide (x.bytes ≠ []) && !isEncrypted lib x.bytes) := by
  unfold decryptStrOrOriginal
  dsimp only
  split_ifs with hversion
  · obtain ⟨hlen, hversion⟩ := Bool.and_eq_true_iff.1 hversion
    rw [hfails (of_decide_eq_true hlen) hversion]
  · rfl

theorem decryptStr_sealed (h : lib.Lawful) (nonce : Nonce) (pk : Option Bytes) :
    decryptStrOrOriginal lib m (sealedStr lib m x.bytes nonce) PASSWORD_ENC_VERSION pk = (x, true, false) := by
  have hversion : (decide ((sealedStr lib m x.bytes nonce).bytes.length > VERSION_LEN) &&
      encVersion.isPrefixOf (sealedStr lib m x.bytes nonce).bytes) = true := by
    rw [sealed_version, decide_eq_true (sealed_length h x.bytes nonce)]
    rfl
  unfold decryptStrOrOriginal
  dsimp only
  rw [if_pos hversion, decrypt_sealed h]
  dsimp only
  rw [fromUtf8Lossy_valid]
  rfl

/-- A string of at most `maxLen` characters, and not an empty one: in clear it settles; with the shape of
an encrypted one, and a payload that does not open, it is left as it is. -/
theorem strings_kept (h : lib.Lawful) (hne : x.bytes ≠ []) (hmax : x.charCount ≤ maxLen)
    {history : List (Secret Str × Cycle)} {k : Secret Str}
    (hx : Exec (Scheme.Init x) (strScheme lib m maxLen).step history k) :
    (isEncrypted lib x.bytes = false →
        (strScheme lib m maxLen).Settles (sealedStr lib m x.bytes) x history k) ∧
      (isEncrypted lib x.bytes = true →
        (∀ p ∈ history, ∀ pk, p.2 = .load pk → decrypt lib m (x.bytes.drop VERSION_LEN) pk = none) →
        (strScheme lib m maxLen).Untouched x history k) := by
  refine Scheme.kept (fun hclear => encryptStr_clear hne hmax hclear)
    (fun hshape => encryptStr_encrypted hshape _) ?_ (decryptStr_sealed h) ?_ hx
  · intro pk hfails
    refine (decryptStr_original pk fun hlen hversion => ?_).trans ?_
    · rcases hfails with hclear | hfails
      · exact decrypt_clear h hlen hversion hclear pk
      · exact hfails
    · rw [decide_eq_true hne]
      rfl
  · intro hclear nonce heq
    have hshape := isEncrypted_sealed h (m := m) x.bytes nonce
    rw [heq, hclear] at hshape
    cases hshape

theorem encryptStr_twice (h : lib.Lawful) (hne : x.bytes ≠ []) (hmax : x.charCount ≤ maxLen)
    (nonce nonce' : Nonce) :
    encryptStrOrOriginal lib m (encryptStrOrOriginal lib m x PASSWORD_ENC_VERSION maxLen nonce)
        PASSWORD_ENC_VERSION maxLen nonce' =
      encryptStrOrOriginal lib m x PASSWORD_ENC_VERSION maxLen nonce := by
  refine encryptStr_encrypted ?_ _ _
  cases hx : isEncrypted lib x.bytes with
  | true => rwa [encryptStr_encrypted hx]
  | false =>
    rw [encryptStr_clear hne hmax hx]
    exact isEncrypted_sealed h _ _

end Strings

section Vectors

variable {lib : Library} {m : Machine} {maxLen : Nat} {x : Bytes}

theorem encryptVec_encrypted (hx : isEncrypted lib x = true) (version : Str) (nonce : Nonce) :
    encryptVecOrOriginal lib m x version maxLen nonce = x := by
  rw [encryptVecOrOriginal, if_pos hx]

theorem encryptVec_clear (hne : x ≠ []) (hmax : x.length ≤ maxLen) (hx : isEncrypted lib x = false)
    (nonce : Nonce) :
    encryptVecOrOriginal lib m x PASSWORD_ENC_VERSION maxLen nonce = (sealedStr lib m x nonce).bytes := by
  rw [encryptVecOrOriginal, if_neg (by rw [hx]; decide), if_neg (by omega), if_pos version_bytes, encrypt_eq hne]
  rfl

theorem version_of_take (hversion : x.take VERSION_LEN = encVersion) : encVersion.isPrefixOf x = true := by
  rw [List.isPrefixOf_iff_prefix, ← hversion]
  exact List.take_prefix _ _

theorem decryptVec_original (pk : Option Bytes)
    (hfails : VERSION_LEN < x.length → encVersion.isPrefixOf x = true →
      decrypt lib m (x.drop VERSION_LEN) pk = none) :
    decryptVecOrOriginal lib m x PASSWORD_ENC_VERSION pk = (x, false, decide (x ≠ []) && !isEncrypted lib x) := by
  unfold decryptVecOrOriginal
  dsimp only
  split_ifs with hlen hversion
  · rw [hfails hlen (version_of_take hversion)]
  · rfl
  · rfl

theorem decryptVec_sealed (h : lib.Lawful) (nonce : Nonce) (pk : Option Bytes) :
    decryptVecOrOriginal lib m (sealedStr lib m x nonce).bytes PASSWORD_ENC_VERSION pk = (x, true, false) := by
  have htake : (sealedStr lib m x nonce).bytes.take VERSION_LEN = encVersion := rfl
  unfold decryptVecOrOriginal
  dsimp only
  rw [if_pos (sealed_length h x nonce), if_pos htake, decrypt_sealed h, htake]
  rfl

theorem vectors_kept (h : lib.Lawful) (hne : x ≠ []) (hmax : x.length ≤ maxLen)
    {history : List (Secret Bytes × Cycle)} {k : Secret Bytes}
    (hx : Exec (Scheme.Init x) (vecScheme lib m maxLen).step history k) :
    (isEncrypted lib x = false →
        (vecScheme lib m maxLen).Settles (fun nonce => (sealedStr lib m x nonce).bytes) x history k) ∧
      (isEncrypted lib x = true →
        (∀ p ∈ history, ∀ pk, p.2 = .load pk → decrypt lib m (x.drop VERSION_LEN) pk = none) →
        (vecScheme lib m maxLen).Untouched x history k) := by
  refine Scheme.kept (fun hclear => encryptVec_clear hne hmax hclear)
    (fun hshape => encryptVec_encrypted hshape _) ?_ (decryptVec_sealed h) ?_ hx
  · intro pk hfails
    refine (decryptVec_original pk fun hlen hversion => ?_).trans ?_
    · rcases hfails with hclear | hfails
      · exact decrypt_clear h hlen hversion hclear pk
      · exact hfails
    · rw [decide_eq_true hne]
      rfl
  · intro hclear nonce heq
    have hshape := isEncrypted_sealed h (m := m) x nonce
    rw [heq, hclear] at hshape
    cases hshape

theorem encryptVec_twice (h : lib.Lawful) (hne : x ≠ []) (hmax : x.length ≤ maxLen) (nonce nonce' : Nonce) :
    encryptVecOrOriginal lib m (encryptVecOrOriginal lib m x PASSWORD_ENC_VERSION maxLen nonce)
        PASSWORD_ENC_VERSION maxLen nonce' =
      encryptVecOrOriginal lib m x PASSWORD_ENC_VERSION maxLen nonce := by
  refine encryptVec_encrypted ?_ _ _
  cases hx : isEncrypted lib x with
  | true => rwa [encryptVec_encrypted hx]
  | false =>
    rw [encryptVec_clear hne hmax hx]
    exact isEncrypted_sealed h _ _

end Vectors

/-- For every value of at most `maxLen` that does not look encrypted and every sequence of saves and loads
from it in clear, each load gives it back, the file holds an encryption of it from the first save on, and
no load after that asks for a store. A value that looks encrypted, and that no load of the run opens, stays
in the file as it is. A value encrypted twice is encrypted once. -/
theorem secrets_settle {lib : Library} (h : lib.Lawful) (m : Machine) (maxLen : Nat) :
    (∀ x : Str, x.bytes ≠ [] → x.charCount ≤ maxLen →
      (∀ history k, Exec (Scheme.Init x) (strScheme lib m maxLen).step history k →
        (isEncrypted lib x.bytes = false →
            (strScheme lib m maxLen).Settles (sealedStr lib m x.bytes) x history k) ∧
          (isEncrypted lib x.bytes = true →
            (∀ p ∈ history, ∀ pk, p.2 = .load pk → decrypt lib m (x.bytes.drop VERSION_LEN) pk = none) →
            (strScheme lib m maxLen).Untouched x history k)) ∧
        ∀ nonce nonce', (strScheme lib m maxLen).save nonce' ((strScheme lib m maxLen).save nonce x) =
          (strScheme lib m maxLen).save nonce x) ∧
    ∀ x : Bytes, x ≠ [] → x.length ≤ maxLen →
      (∀ history k, Exec (Scheme.Init x) (vecScheme lib m maxLen).step history k →
        (isEncrypted lib x = false →
            (vecScheme lib m maxLen).Settles (fun nonce => (sealedStr lib m x nonce).bytes) x history k) ∧
          (isEncrypted lib x = true →
            (∀ p ∈ history, ∀ pk, p.2 = .load pk → decrypt lib m (x.drop VERSION_LEN) pk = none) →
            (vecScheme lib m maxLen).Untouched x history k)) ∧
        ∀ nonce nonce', (vecScheme lib m maxLen).save nonce' ((vecScheme lib m maxLen).save nonce x) =
          (vecScheme lib m maxLen).save nonce x := by
  constructor
  · intro x hne hmax
    exact ⟨fun history k hx => strings_kept h hne hmax hx, encryptStr_twice h hne hmax⟩
  · intro x hne hmax
    exact ⟨fun history k hx => vectors_kept h hne hmax hx, encryptVec_twice h hne hmax⟩

/-! A password that is saved once, and one that is base64 of sixteen bytes behind `00`. -/

namespace Stored

def ascii (s : String) : Bytes := s.toList.map fun c => UInt8.ofNat c.toNat

def machine : Machine where
  uuid := ascii "0123456789abcdef0123456789abcdef"
  mobile := false

def nonce : Nonce where
  bytes := (List.range NONCEBYTES).map fun i => UInt8.ofNat (i + 1)
  length_eq := rfl

def hello : Str := .ofAscii (ascii "hello") (by decide +kernel)

/-- `hello` under the key of `machine`. -/
def helloSealed : Bytes := [0x49, 0xb3, 0x38, 0xb4, 0x6b, 0x20, 0xba, 0x71, 0x24, 0xc1, 0xcb, 0x54, 0x45, 0xb0,
  0x13, 0x9e, 0x2d, 0xaa, 0xf7, 0x9c, 0x4e]

def shaped : Str := .ofAscii (ascii "00AAAAAAAAAAAAAAAAAAAAAA==") (by decide +kernel)

/-- The library: base64 as it is, and the cipher on these values; on others a tag of ones. -/
def library : Library where
  secretboxSeal data n k :=
    if data = hello.bytes ∧ n = nonce ∧ k = keyOf machine.uuid then helloSealed
    else List.replicate MACBYTES 1 ++ data
  secretboxOpen c n k :=
    if c = helloSealed then if n = nonce ∧ k = keyOf machine.uuid then some hello.bytes else none
    else if MACBYTES ≤ c.length ∧ c.take MACBYTES = List.replicate MACBYTES 1 then some (c.drop MACBYTES)
    else none
  generichash _ _ := none
  base64Encode v := .ofAscii (Base64.encode v) (Base64.encode_ascii v)
  base64Decode := Base64.decode
  replaceInvalid _ := .empty

theorem library_lawful : library.Lawful := by
  have htag : ∀ data : Bytes, (List.replicate MACBYTES (1 : UInt8) ++ data).take MACBYTES =
      List.replicate MACBYTES 1 := fun data => List.take_left' (List.length_replicate ..)
  refine ⟨Base64.decode_encoded, Base64.length_encode, ?_, ?_, ?_⟩
  · intro data n k
    simp only [library]
    by_cases hvalues : data = hello.bytes ∧ n = nonce ∧ k = keyOf machine.uuid
    · rw [if_pos hvalues, if_pos rfl, if_pos hvalues.2, hvalues.1]
    · have hother : List.replicate MACBYTES 1 ++ data ≠ helloSealed := by
        intro hsame
        have hones := htag data
        rw [hsame] at hones
        exact absurd hones (by decide +kernel)
      rw [if_neg hvalues, if_neg hother, if_pos ⟨by simp, htag data⟩,
        List.drop_left' (List.length_replicate ..)]
  · intro data n k
    simp only [library]
    split_ifs with hvalues
    · rw [hvalues.1]
      decide +kernel
    · rw [List.length_append, List.length_replicate, Nat.add_comm]
  · intro c n k hshort
    simp only [library]
    split_ifs with hsame
    · subst hsame
      exact absurd hshort (by decide +kernel)
    · subst hsame
      exact absurd hshort (by decide +kernel)
    · omega
    · rfl

end Stored

open Stored in
/-- `hello` is loaded, saved and loaded, as a string; the other, as bytes, is saved and loaded, first with a
key to fall back on. -/
theorem secrets_settle_both :
    (∃ history k, Exec (Scheme.Init hello) (strScheme library machine 128).step history k ∧
      history.map (·.2) = [.load none, .save nonce, .load none] ∧
      k.file.bytes = ascii "00AQECAwQFBgcICQoLDA0ODxAREhMUFRYXGEmzOLRrILpxJMHLVEWwE54tqvecTg==" ∧
      (strScheme library machine 128).Settles (sealedStr library machine hello.bytes) hello history k) ∧
    ∃ history k, Exec (Scheme.Init shaped.bytes) (vecScheme library machine 128).step history k ∧
      history.map (·.2) = [.load none, .load (some (ascii "fedcba9876543210")), .save nonce] ∧
      (vecScheme library machine 128).Untouched shaped.bytes history k := by
  constructor
  · have hx : Exec (Scheme.Init hello) (strScheme library machine 128).step _ _ :=
      .snoc (e := .load none) (.snoc (e := .save nonce) (.snoc (e := .load none) (.start rfl) rfl) rfl) rfl
    refine ⟨_, _, hx, rfl, by decide +kernel, ?_⟩
    exact ((((secrets_settle library_lawful machine 128).1 hello (by decide +kernel) (by decide +kernel)).1
      _ _ hx).1) (by decide +kernel)
  · have hx : Exec (Scheme.Init shaped.bytes) (vecScheme library machine 128).step _ _ :=
      .snoc (e := .load none) (.snoc (e := .load (some (ascii "fedcba9876543210"))) (.snoc (e := .save nonce) (.start rfl) rfl)
        rfl) rfl
    refine ⟨_, _, hx, rfl, ?_⟩
    refine ((((secrets_settle library_lawful machine 128).2 shaped.bytes (by decide +kernel)
      (by decide +kernel)).1 _ _ hx).2) (by decide +kernel) fun p hp pk hpk => ?_
    simp only [List.mem_cons, List.not_mem_nil, or_false] at hp
    rcases hp with rfl | rfl | rfl
    · cases hpk
      decide +kernel
    · cases hpk
      decide +kernel
    · cases hpk

open Stored in
/-- A value with the shape of an encrypted one is kept in clear. -/
theorem shaped_kept_clear : ∃ history k,
    Exec (Scheme.Init shaped) (strScheme library machine 128).step history k ∧
      history.map (·.2) = [.save nonce] ∧ k.file = shaped ∧
      ¬(strScheme library machine 128).Settles (sealedStr library machine shaped.bytes) shaped history k := by
  have hx : Exec (Scheme.Init shaped) (strScheme library machine 128).step _ _ :=
    .snoc (e := .save nonce) (.start rfl) rfl
  have hfile : encryptStrOrOriginal library machine shaped PASSWORD_ENC_VERSION 128 nonce = shaped := by
    decide +kernel
  refine ⟨_, _, hx, rfl, hfile, fun h => ?_⟩
  exact (h.saved ⟨_, List.mem_singleton_self _, rfl⟩).2 hfile

end FontisRemote.Config
