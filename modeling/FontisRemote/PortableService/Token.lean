import Mathlib.Algebra.Order.Ring.Int
import Mathlib.Data.List.Basic
import Mathlib.Data.List.TakeWhile

/-!
# The token of a portable service

The main process makes a token for each launch and leaves it at the front of the shared memory that it gives the helper;
the helper reads it there and shows it when it connects. A token is 64 hexadecimal digits, so that a cleared memory
holds none.
-/

namespace FontisRemote.PortableService

abbrev Bytes := List UInt8

def IPC_TOKEN_LEN : Nat := 64

def IPC_TOKEN_RANDOM_BYTES : Nat := IPC_TOKEN_LEN / 2

/-- A digit of `{:02x}`. -/
def hexDigit (n : Nat) : UInt8 := if n < 10 then UInt8.ofNat (0x30 + n) else UInt8.ofNat (0x57 + n)

/-- What `generate_one_time_ipc_token` makes of its random bytes. -/
def generateOneTimeIpcToken (randomBytes : Bytes) : Bytes :=
  randomBytes.flatMap fun byte => [hexDigit (byte.toNat / 16), hexDigit (byte.toNat % 16)]

/-- `is_ascii_hexdigit() && !is_ascii_uppercase()` -/
def isLowerHexDigit (byte : UInt8) : Bool :=
  (0x30 ≤ byte && byte ≤ 0x39) || (0x61 ≤ byte && byte ≤ 0x66)

def isValidPortableServiceIpcToken (token : Bytes) : Bool :=
  token.length == IPC_TOKEN_LEN && token.all isLowerHexDigit

def constantTimeIpcTokenEq (expected candidate : Bytes) : Bool :=
  if expected.length ≠ IPC_TOKEN_LEN ∨ candidate.length ≠ IPC_TOKEN_LEN then false
  else (expected.zip candidate).foldl (fun diff p => diff ||| (p.1 ^^^ p.2)) 0 == 0

/-- `SharedMemory::write`, at the address of the token. -/
def write (mem data : Bytes) : Bytes := data ++ mem.drop data.length

/-- Text that is not UTF-8 is no token either, as it is not of hexadecimal digits. -/
def readIpcTokenFromShmem (mem : Bytes) : Option Bytes :=
  if mem.length < IPC_TOKEN_LEN then none
  else
    let token := (mem.take IPC_TOKEN_LEN).takeWhile (· ≠ 0)
    if token = [] then none
    else if isValidPortableServiceIpcToken token then some token
    else none

def writeIpcTokenToShmem (mem token : Bytes) : Except String Bytes :=
  if isValidPortableServiceIpcToken token then .ok (write mem token)
  else .error "Invalid portable service ipc token"

def clearIpcTokenInShmem (mem : Bytes) : Bytes := write mem (List.replicate IPC_TOKEN_LEN 0)

/-! ## What a token is -/

section Token

variable {token candidate mem : Bytes}

theorem isLowerHexDigit_hexDigit {n : Nat} (hn : n < 16) : isLowerHexDigit (hexDigit n) = true := by
  have hall : ∀ n < 16, isLowerHexDigit (hexDigit n) = true := by decide
  exact hall n hn

theorem ne_zero_of_isLowerHexDigit {byte : UInt8} (h : isLowerHexDigit byte = true) : byte ≠ 0 := by
  rintro rfl
  exact absurd h (by decide)

theorem length_generate (randomBytes : Bytes) :
    (generateOneTimeIpcToken randomBytes).length = 2 * randomBytes.length := by
  induction randomBytes with
  | nil => rfl
  | cons byte rest ih =>
    have hrest : generateOneTimeIpcToken (byte :: rest) =
        [hexDigit (byte.toNat / 16), hexDigit (byte.toNat % 16)] ++ generateOneTimeIpcToken rest := rfl
    rw [hrest, List.length_append, ih, List.length_cons]
    simp only [List.length_cons, List.length_nil]
    omega

/-- What is generated can be written. -/
theorem generate_valid {randomBytes : Bytes} (h : randomBytes.length = IPC_TOKEN_RANDOM_BYTES) :
    isValidPortableServiceIpcToken (generateOneTimeIpcToken randomBytes) = true := by
  unfold isValidPortableServiceIpcToken
  rw [Bool.and_eq_true, beq_iff_eq, length_generate, h, List.all_eq_true]
  refine ⟨rfl, fun digit hdigit => ?_⟩
  obtain ⟨byte, -, hmem⟩ := List.mem_flatMap.1 hdigit
  have hbyte := byte.toNat_lt
  rcases List.mem_pair.1 hmem with rfl | rfl
  · exact isLowerHexDigit_hexDigit (by omega)
  · exact isLowerHexDigit_hexDigit (by omega)

theorem length_of_valid (h : isValidPortableServiceIpcToken token = true) : token.length = IPC_TOKEN_LEN := by
  unfold isValidPortableServiceIpcToken at h
  rw [Bool.and_eq_true, beq_iff_eq] at h
  exact h.1

/-- The comparison that takes the same time for all is the comparison. -/
theorem constantTimeIpcTokenEq_iff :
    constantTimeIpcTokenEq token candidate = true ↔ token = candidate ∧ token.length = IPC_TOKEN_LEN := by
  have hfold : ∀ (left right : Bytes) (diff : UInt8), left.length = right.length →
      ((left.zip right).foldl (fun diff p => diff ||| (p.1 ^^^ p.2)) diff = 0 ↔ diff = 0 ∧ left = right) := by
    intro left
    induction left with
    | nil =>
      intro right diff hlen
      obtain rfl := List.length_eq_zero_iff.1 hlen.symm
      simp
    | cons a left ih =>
      intro right diff hlen
      cases right with
      | nil => cases hlen
      | cons b right =>
        rw [List.zip_cons_cons, List.foldl_cons, ih right _ (Nat.succ.inj hlen), UInt8.or_eq_zero_iff, UInt8.xor_eq_zero_iff,
          List.cons.injEq, and_assoc]
  unfold constantTimeIpcTokenEq
  split
  · next h =>
    constructor
    · intro hfalse
      cases hfalse
    · rintro ⟨rfl, hlen⟩
      exact absurd hlen (h.elim id id)
  · next h =>
    rw [not_or, not_not, not_not] at h
    rw [beq_iff_eq, hfold token candidate 0 (h.1.trans h.2.symm)]
    exact ⟨fun heq => ⟨heq.2, h.1⟩, fun heq => ⟨rfl, heq.1⟩⟩

/-! ## What the memory holds -/

theorem length_write {data : Bytes} (h : data.length ≤ mem.length) : (write mem data).length = mem.length := by
  rw [write, List.length_append, List.length_drop]
  omega

theorem read_write (hmem : IPC_TOKEN_LEN ≤ mem.length) (h : isValidPortableServiceIpcToken token = true) :
    readIpcTokenFromShmem (write mem token) = some token := by
  have hlen := length_of_valid h
  have hdigits : ∀ byte ∈ token, byte ≠ 0 := by
    intro byte hbyte
    unfold isValidPortableServiceIpcToken at h
    rw [Bool.and_eq_true, List.all_eq_true] at h
    exact ne_zero_of_isLowerHexDigit (h.2 byte hbyte)
  have htake : ((write mem token).take IPC_TOKEN_LEN).takeWhile (· ≠ 0) = token := by
    rw [write, ← hlen, List.take_left, List.takeWhile_eq_self_iff]
    intro byte hbyte
    exact decide_eq_true (hdigits byte hbyte)
  have hne : token ≠ [] := by
    rintro rfl
    cases hlen
  unfold readIpcTokenFromShmem
  rw [length_write (hlen ▸ hmem), if_neg (Nat.not_lt.2 hmem)]
  dsimp only
  rw [htake, if_neg hne, if_pos h]

theorem read_clear (hmem : IPC_TOKEN_LEN ≤ mem.length) : readIpcTokenFromShmem (clearIpcTokenInShmem mem) = none := by
  unfold readIpcTokenFromShmem clearIpcTokenInShmem
  rw [length_write (by rwa [List.length_replicate]), if_neg (Nat.not_lt.2 hmem)]
  rfl

end Token

end FontisRemote.PortableService
