/-
# Ocpp.BasicAuth -- the credential of the handshake

`lws_http_basic_auth_gen2_ocpp` writes `Basic ` and the base64 text of `user:password` into a
buffer.  It compares the size of the buffer with four thirds of the text, which is what the
encoding takes before it is padded, and it does not look at what the encoder returns.

* `Documented` is what is relied on of `lws_b64_encode_string`, and `b64EncodeString` a function
  that does so.
* `gen2_of_fits` and `gen2_of_tight`: the call where the padded text fits, and where only the
  text without padding does.
* `credential_complete_iff`: exactly when nothing but a whole credential is reported.
-/
import ChargerStack.Cxx.Basic

namespace ChargerStack.Ocpp.BasicAuth

open Cxx

set_option autoImplicit false

abbrev Bytes := List UInt8

/-! ## Base64 -/

/-- A character of the alphabet `A-Z`, `a-z`, `0-9`, `+`, `/`. -/
def base64Char (n : Nat) : UInt8 :=
  if n < 26 then UInt8.ofNat (65 + n)
  else if n < 52 then UInt8.ofNat (71 + n)
  else if n < 62 then UInt8.ofNat (n - 4)
  else if n = 62 then 43
  else 47

/-- The padded encoding. -/
def base64 : Bytes → Bytes
  | [] => []
  | [a] => [base64Char (a.toNat / 4), base64Char (a.toNat % 4 * 16), 61, 61]
  | [a, b] =>
      [base64Char (a.toNat / 4), base64Char (a.toNat % 4 * 16 + b.toNat / 16),
        base64Char (b.toNat % 16 * 4), 61]
  | a :: b :: c :: t =>
      base64Char (a.toNat / 4) :: base64Char (a.toNat % 4 * 16 + b.toNat / 16) ::
        base64Char (b.toNat % 16 * 4 + c.toNat / 64) :: base64Char (c.toNat % 64) :: base64 t

/-- `Man` -/
example : base64 [77, 97, 110, 77] = [84, 87, 70, 117, 84, 81, 61, 61] := by decide

theorem base64_length (text : Bytes) : (base64 text).length = 4 * ((text.length + 2) / 3) := by
  fun_induction base64 text with
  | case1 => rfl
  | case2 a => simp
  | case3 a b => simp
  | case4 a b c t ih =>
      simp only [List.length_cons, ih]
      omega

theorem base64Char_ne_zero (n : Nat) : base64Char n ≠ 0 := by
  intro zero
  have value := congrArg UInt8.toNat zero
  unfold base64Char at value
  split at value
  · rw [UInt8.toNat_ofNat'] at value
    change _ = 0 at value
    omega
  · split at value
    · rw [UInt8.toNat_ofNat'] at value
      change _ = 0 at value
      omega
    · split at value
      · rw [UInt8.toNat_ofNat'] at value
        change _ = 0 at value
        omega
      · split at value
        · cases value
        · cases value

theorem zero_notMem_base64 (text : Bytes) : 0 ∉ base64 text := by
  have char := fun n => (base64Char_ne_zero n).symm
  fun_induction base64 text with
  | case1 => simp
  | case2 a => simp [char]
  | case3 a b => simp [char]
  | case4 a b c t ih => simp [char, ih]

/-! ## The encoder -/

/-- `lws_b64_encode_string(in, in_len, out, out_size)`: what it returns, and what is then in
`out`. -/
abbrev Encoder := Bytes → Bytes → Int → Int × Bytes

/-- The padded encoding and a NUL are written where they fit; where they do not, the result is
negative.  Nothing else is touched. -/
structure Documented (encode : Encoder) : Prop where
  fits : ∀ (text out : Bytes) (size : Int), (base64 text).length + 1 ≤ size → size ≤ out.length →
    0 ≤ (encode text out size).1 ∧
      (encode text out size).2 = base64 text ++ 0 :: out.drop ((base64 text).length + 1)
  fails : ∀ (text out : Bytes) (size : Int), size < (base64 text).length + 1 →
    (encode text out size).1 < 0
  within : ∀ (text out : Bytes) (size : Int), size ≤ out.length →
    (encode text out size).2.length = out.length

/-- An encoder that leaves the groups of four that it has written when it fails. -/
def b64EncodeString : Encoder := fun text out size =>
  if (base64 text).length + 1 ≤ size then
    ((base64 text).length, base64 text ++ 0 :: out.drop ((base64 text).length + 1))
  else
    let done := min (base64 text).length (4 * ((size - 1).toNat / 4))
    (-1, (base64 text).take done ++ out.drop done)

theorem documented_b64EncodeString : Documented b64EncodeString where
  fits := by
    intro text out size room _
    rw [b64EncodeString, if_pos room]
    exact ⟨Int.natCast_nonneg _, rfl⟩
  fails := by
    intro text out size tight
    rw [b64EncodeString, if_neg (by omega)]
    show (-1 : Int) < 0
    decide
  within := by
    intro text out size inside
    unfold b64EncodeString
    split
    · simp only [List.length_append, List.length_cons, List.length_drop]
      omega
    · simp only [List.length_append, List.length_take, List.length_drop]
      omega

/-! ## The code -/

/-- `Basic ` -/
def basic : Bytes := [66, 97, 115, 105, 99, 32]

/-- `lws_snprintf(b, size, ..)` of a text: what is written in front of the NUL, and the length,
which is cut as well. -/
def lws_snprintf (size : Nat) (text : Bytes) : Nat × Bytes :=
  (min text.length size, text.take (size - 1))

/-- `lws_http_basic_auth_gen2_ocpp(user, pw, pw_len, buf, len)`: what it returns, and what is then
in `buf`.  The lengths of two objects are added, so no sum wraps. -/
def lws_http_basic_auth_gen2_ocpp (encode : Encoder) (user pw buf : Bytes) : Nat × Bytes :=
  let len := buf.length
  let n := (cString user).length
  if len < 6 + 4 * (n + pw.length + 1) / 3 + 1 then (1, buf)
  else
    let buf := basic ++ buf.drop 6
    let (n, b) := lws_snprintf 128 (cString user ++ [58])
    if n + pw.length ≥ 128 - 2 then (2, buf)
    else
      let b := b.take n ++ pw
      let (_, out) := encode b (buf.drop 6) (int32 (int32 len - 6))
      (0, (buf.take 6 ++ out).set (len - 1) 0)

/-- `LWS_CALLBACK_CLIENT_APPEND_HANDSHAKE_HEADER`, with what is in `out` before: the value of the
header, if one is added. -/
def appendHandshakeHeader (encode : Encoder) (user pw out : Bytes) : Option Bytes :=
  if user = [] then none
  else
    let (failed, out) := lws_http_basic_auth_gen2_ocpp encode user pw out
    if failed ≠ 0 then none else some (cString (out.set (out.length - 1) 0))

/-! ## What is promised -/

/-- The text that is encoded. -/
def userPassword (user pw : Bytes) : Bytes := cString user ++ 58 :: pw

/-- The whole credential. -/
def credential (user pw : Bytes) : Bytes := basic ++ base64 (userPassword user pw)

/-- With a buffer of `len` bytes: 0 is returned only if the credential and its NUL are in it, and
not if they do not fit. -/
def CredentialComplete (user pw : Bytes) (len : Nat) : Prop :=
  ∀ encode, Documented encode → ∀ buf, buf.length = len →
    ((lws_http_basic_auth_gen2_ocpp encode user pw buf).1 = 0 →
      credential user pw ++ [0] <+: (lws_http_basic_auth_gen2_ocpp encode user pw buf).2) ∧
    (len < (credential user pw).length + 1 →
      (lws_http_basic_auth_gen2_ocpp encode user pw buf).1 ≠ 0)

/-- The header, if one is added, is the whole credential. -/
def HandshakeComplete (user pw : Bytes) : Prop :=
  ∀ encode, Documented encode → ∀ out : Bytes, out.length = 128 →
    ∀ value, appendHandshakeHeader encode user pw out = some value → value = credential user pw

/-- The buffer is too small even without the padding, or the text for the code's own buffer; or
there is room for the padded text, as an `int` holds the size. -/
def CredentialFits (user pw : Bytes) (len : Nat) : Prop :=
  len < 6 + 4 * (userPassword user pw).length / 3 + 1 ∨ 126 ≤ (userPassword user pw).length ∨
    4 * (((userPassword user pw).length + 2) / 3) + 1 ≤ int32 (int32 len - 6)

/-! ## One call -/

variable {encode : Encoder} {user pw buf : Bytes}

theorem userPassword_length (user pw : Bytes) :
    (userPassword user pw).length = (cString user).length + pw.length + 1 := by
  simp only [userPassword, List.length_append, List.length_cons]
  omega

theorem credential_length (user pw : Bytes) :
    (credential user pw).length = 6 + 4 * (((userPassword user pw).length + 2) / 3) := by
  rw [credential, List.length_append, base64_length]
  rfl

/-- Both checks are passed. -/
def Passes (user pw : Bytes) (len : Nat) : Prop :=
  6 + 4 * (userPassword user pw).length / 3 + 1 ≤ len ∧ (userPassword user pw).length < 126

/-- A call that does not pass is refused. -/
theorem gen2_of_refused (encode : Encoder) (refused : ¬ Passes user pw buf.length) :
    (lws_http_basic_auth_gen2_ocpp encode user pw buf).1 ≠ 0 := by
  have length := userPassword_length user pw
  simp only [lws_http_basic_auth_gen2_ocpp, lws_snprintf, ← length, List.length_append,
    List.length_singleton]
  split
  · simp
  · next enough =>
      split
      · simp
      · next short =>
          refine absurd ⟨by omega, ?_⟩ refused
          omega

/-- A call that passes encodes the text into what is left behind `Basic `, whatever becomes of it,
and ends the buffer with a NUL. -/
theorem gen2_of_passes (passes : Passes user pw buf.length) :
    lws_http_basic_auth_gen2_ocpp encode user pw buf =
      (0, (basic ++ (encode (userPassword user pw) (buf.drop 6)
        (int32 (int32 buf.length - 6))).2).set (buf.length - 1) 0) := by
  obtain ⟨enough, short⟩ := passes
  have length := userPassword_length user pw
  have whole : (cString user ++ [58] : Bytes).take (128 - 1) = cString user ++ [58] :=
    List.take_of_length_le (by simp; omega)
  have first : ¬ buf.length < 6 + 4 * ((cString user).length + pw.length + 1) / 3 + 1 := by
    rw [← length]
    omega
  have small : min (cString user ++ [58] : Bytes).length 128 = (cString user ++ [58]).length :=
    Nat.min_eq_left (by simp; omega)
  have second : ¬ (cString user ++ [58] : Bytes).length + pw.length ≥ 128 - 2 := by
    simp
    omega
  have text : (cString user ++ [58] : Bytes) ++ pw = userPassword user pw := by
    simp [userPassword]
  have front : (basic ++ buf.drop 6).take 6 = basic := rfl
  have behind : (basic ++ buf.drop 6).drop 6 = buf.drop 6 := rfl
  simp only [lws_http_basic_auth_gen2_ocpp, lws_snprintf, if_neg first, small, whole,
    if_neg second, List.take_length, text, front, behind]

/-- A NUL that is set behind a C string, or at its end, leaves it whole. -/
theorem prefix_set {p buf : Bytes} {j : Nat} (whole : p ++ [0] <+: buf) (behind : p.length ≤ j) :
    p ++ [0] <+: buf.set j 0 := by
  obtain ⟨rest, rfl⟩ := whole
  rw [List.append_assoc, List.singleton_append, List.set_append_right _ _ behind]
  cases j - p.length with
  | zero => exact ⟨rest, by simp⟩
  | succ k => exact ⟨rest.set k 0, by simp⟩

/-- The size that is handed to the encoder. -/
theorem room_eq_int32 (len : Nat) : int32 (int32 len - 6) = int32 (len - 6) :=
  Int.bmod_sub_bmod

/-- It is inside the buffer. -/
theorem room_le (len : Nat) (enough : 7 ≤ len) : int32 (int32 len - 6) ≤ (len - 6 : Nat) := by
  rw [room_eq_int32]
  simp only [int32, Int.bmod]
  split <;> omega

theorem room_eq (len : Nat) (small : len < 2 ^ 31) (enough : 7 ≤ len) :
    int32 (int32 len - 6) = (len - 6 : Nat) := by
  rw [room_eq_int32, int32_of_range (by omega) (by omega)]
  omega

/-- **Where the padded text fits**, the whole credential is written. -/
theorem gen2_of_fits (documented : Documented encode) (passes : Passes user pw buf.length)
    (room : 4 * (((userPassword user pw).length + 2) / 3) + 1 ≤ int32 (int32 buf.length - 6)) :
    credential user pw ++ [0] <+: (lws_http_basic_auth_gen2_ocpp encode user pw buf).2 := by
  have inside := room_le buf.length (by have := passes.1; omega)
  have length := base64_length (userPassword user pw)
  have credential_length := credential_length user pw
  obtain ⟨-, written⟩ := documented.fits (userPassword user pw) (buf.drop 6)
    (int32 (int32 buf.length - 6)) (by omega) (by simpa using inside)
  rw [gen2_of_passes passes, written]
  refine prefix_set ?_ (by omega)
  refine ⟨(buf.drop 6).drop ((base64 (userPassword user pw)).length + 1), ?_⟩
  simp [credential]

/-- **Where only the text without its padding fits**, 0 is returned nevertheless, and in a buffer
whose size is an `int` there is no room for the credential. -/
theorem gen2_of_tight (encode : Encoder) (passes : Passes user pw buf.length)
    (tight : int32 (int32 buf.length - 6) < 4 * (((userPassword user pw).length + 2) / 3) + 1)
    (small : buf.length < 2 ^ 31) :
    (lws_http_basic_auth_gen2_ocpp encode user pw buf).1 = 0 ∧
      buf.length < (credential user pw).length + 1 := by
  have enough := passes.1
  have room := room_eq _ small (by omega)
  have length := credential_length user pw
  refine ⟨by rw [gen2_of_passes passes], ?_⟩
  omega

/-! ## When nothing but a whole credential is reported -/

variable {len : Nat}

theorem complete_of_fits (fits : CredentialFits user pw len) : CredentialComplete user pw len := by
  intro encode documented buf same
  subst same
  by_cases passes : Passes user pw buf.length
  · have room : 4 * (((userPassword user pw).length + 2) / 3) + 1 ≤
        int32 (int32 buf.length - 6) := by
      obtain ⟨enough, short⟩ := passes
      rcases fits with refused | long | room
      · omega
      · omega
      · exact room
    refine ⟨fun _ => gen2_of_fits documented passes room, fun tight => ?_⟩
    have inside := room_le buf.length (by have := passes.1; omega)
    have length := credential_length user pw
    omega
  · have refused := gen2_of_refused encode passes
    exact ⟨fun accepted => absurd accepted refused, fun _ => refused⟩

theorem fits_of_complete (complete : CredentialComplete user pw len) :
    CredentialFits user pw len := by
  by_contra unfit
  simp only [CredentialFits, not_or, not_lt, not_le] at unfit
  obtain ⟨enough, short, tight⟩ := unfit
  -- a buffer of ones, so that no NUL is in it that was not written
  obtain ⟨buf, ones⟩ : ∃ buf : Bytes, buf = List.replicate len 1 := ⟨_, rfl⟩
  have same : buf.length = len := by rw [ones, List.length_replicate]
  have passes : Passes user pw buf.length := same ▸ ⟨enough, short⟩
  obtain ⟨whole, refused⟩ := complete b64EncodeString documented_b64EncodeString buf same
  by_cases small : len < 2 ^ 31
  · obtain ⟨accepted, long⟩ := gen2_of_tight b64EncodeString passes
      (by rw [same]; omega) (by omega)
    exact refused (by omega) accepted
  · -- the size does not fit into an `int`: the encoder fails, and the end is far away
    have accepted : (lws_http_basic_auth_gen2_ocpp b64EncodeString user pw buf).1 = 0 := by
      rw [gen2_of_passes passes]
    have length := credential_length user pw
    have encoded := base64_length (userPassword user pw)
    obtain ⟨rest, text⟩ := whole accepted
    have here := congrArg (fun b => b[(credential user pw).length]?) text
    rw [gen2_of_passes passes, same, b64EncodeString, if_neg (by omega)] at here
    have place : (credential user pw).length =
        basic.length + (base64 (userPassword user pw)).length := by
      rw [credential, List.length_append]
    have before : ¬ len - 1 = (credential user pw).length := by omega
    simp only [List.append_assoc, List.singleton_append, List.getElem?_append_right,
      Nat.le_refl, Nat.sub_self, List.getElem?_cons_zero, List.getElem?_set, before, if_false] at here
    rw [place, List.getElem?_append_right (by omega), Nat.add_sub_cancel_left,
      List.getElem?_append_right (List.length_take_le' _ _), List.getElem?_drop,
      List.getElem?_drop, ones, List.getElem?_replicate] at here
    split at here
    · cases here
    · cases here

/-! ## The handshake -/

theorem zero_notMem_credential (user pw : Bytes) : 0 ∉ credential user pw := by
  rw [credential, List.mem_append, not_or]
  exact ⟨by decide, zero_notMem_base64 _⟩

/-- What is in front of the first NUL is a text without one that a NUL ends. -/
theorem cString_of_prefix {p buf : Bytes} (whole : p ++ [0] <+: buf) (free : 0 ∉ p) :
    cString buf = p := by
  obtain ⟨rest, rfl⟩ := whole
  have chars : p.takeWhile (· != 0) = p := cString_eq_self_iff.2 free
  rw [cString, List.append_assoc, List.takeWhile_append, if_pos (by rw [chars])]
  simp

/-- The header is added where the call succeeds. -/
theorem appendHandshakeHeader_eq_some {out value : Bytes} :
    appendHandshakeHeader encode user pw out = some value ↔
      user ≠ [] ∧ (lws_http_basic_auth_gen2_ocpp encode user pw out).1 = 0 ∧
        value = cString ((lws_http_basic_auth_gen2_ocpp encode user pw out).2.set
          ((lws_http_basic_auth_gen2_ocpp encode user pw out).2.length - 1) 0) := by
  unfold appendHandshakeHeader
  split
  · next nobody => simp [nobody]
  · next somebody =>
      split
      simp [*, eq_comm]

theorem handshake_of_ne (length : (userPassword user pw).length ≠ 91) :
    HandshakeComplete user pw := by
  intro encode documented out size value added
  obtain ⟨-, accepted, rfl⟩ := appendHandshakeHeader_eq_some.1 added
  have passes : Passes user pw out.length := by
    by_contra refused
    exact gen2_of_refused encode refused accepted
  have enough := passes.1
  have room := room_eq out.length (by omega) (by omega)
  have whole := gen2_of_fits documented passes (by omega)
  have long := whole.length_le
  rw [List.length_append, List.length_singleton] at long
  exact cString_of_prefix (prefix_set whole (by omega)) (zero_notMem_credential user pw)

theorem gen2_length (documented : Documented encode) (passes : Passes user pw buf.length) :
    (lws_http_basic_auth_gen2_ocpp encode user pw buf).2.length = buf.length := by
  have enough := passes.1
  have inside := room_le buf.length (by omega)
  rw [← List.length_drop] at inside
  rw [gen2_of_passes passes, List.length_set, List.length_append, documented.within _ _ _ inside,
    List.length_drop]
  show 6 + (buf.length - 6) = buf.length
  omega

theorem not_handshake_of_eq (somebody : user ≠ []) (length : (userPassword user pw).length = 91) :
    ¬ HandshakeComplete user pw := by
  intro complete
  obtain ⟨out, size⟩ : ∃ out : Bytes, out.length = 128 :=
    ⟨List.replicate 128 0, List.length_replicate⟩
  have passes : Passes user pw out.length := by
    rw [size, Passes, length]
    decide
  have accepted : (lws_http_basic_auth_gen2_ocpp b64EncodeString user pw out).1 = 0 := by
    rw [gen2_of_passes passes]
  have value := complete b64EncodeString documented_b64EncodeString out size _
    (appendHandshakeHeader_eq_some.2 ⟨somebody, accepted, rfl⟩)
  have written := gen2_length documented_b64EncodeString passes
  -- the credential has 130 characters, and the header is cut out of 128
  have long := credential_length user pw
  rw [← value, length, written, size] at long
  have cut := (cString_isPrefix
    ((lws_http_basic_auth_gen2_ocpp b64EncodeString user pw out).2.set (128 - 1) 0)).length_le
  rw [List.length_set, written, size] at cut
  omega

/-- **When nothing but a whole credential is reported, and sent**: for the buffer of the handshake
the text must not have exactly 91 bytes, the one length whose padding does not fit. -/
theorem credential_complete_iff (user pw : Bytes) (len : Nat) :
    (CredentialComplete user pw len ↔ CredentialFits user pw len) ∧
      (HandshakeComplete user pw ↔ user = [] ∨ (userPassword user pw).length ≠ 91) := by
  refine ⟨⟨fits_of_complete, complete_of_fits⟩, fun complete => ?_, ?_⟩
  · by_contra neither
    rw [not_or, not_not] at neither
    exact not_handshake_of_eq neither.1 neither.2 complete
  · rintro (nobody | length)
    · intro encode documented out size value added
      exact absurd nobody (appendHandshakeHeader_eq_some.1 added).1
    · exact handshake_of_ne length

/-- The user `a` with no password, in 9 bytes of which the credential takes 11; and with a password
of 89 bytes, in the handshake. -/
theorem credential_truncated :
    (lws_http_basic_auth_gen2_ocpp b64EncodeString [97] [] (List.replicate 9 1)).1 = 0 ∧
      (credential [97] []).length + 1 = 11 ∧
      ¬ CredentialComplete [97] [] 9 ∧ ¬ HandshakeComplete [97] (List.replicate 89 98) := by
  have accepted :
      (lws_http_basic_auth_gen2_ocpp b64EncodeString [97] [] (List.replicate 9 1)).1 = 0 := by decide
  refine ⟨accepted, by decide, fun complete => ?_, not_handshake_of_eq (by simp) (by decide)⟩
  have refused := (complete b64EncodeString documented_b64EncodeString (List.replicate 9 1) rfl).2
  exact refused (by decide) accepted

end ChargerStack.Ocpp.BasicAuth
