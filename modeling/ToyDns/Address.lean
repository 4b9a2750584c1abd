import ToyDns.Resolver
import Mathlib.Data.Nat.Digits

/-! # The address of an A record — `Record::ip_address`

    `ip_address` writes each data byte with `format!("{}", datum)` and, while the iterator
    peeks another byte, a `.` after it. Whatever the length of the data, the result is the
    decimal numerals of the bytes, in order, with one `.` between each two
    (`Record.ipAddress_eq`): the empty string for no data, a byte's numeral alone for one
    byte, the dotted quad for the four bytes of an IPv4 address.

    The resolver asks that text as the next server after every referral, so every server its
    top-level loop goes on to is the dotted decimal of an A record's data
    (`Query.Reaches.next_eq_dottedDecimal`). The text names the data: splitting it at its
    dots and reading each numeral gives the bytes back (`readDotted_ipAddress`).

    A numeral here is the base-10 digits of `Nat.digits`, most significant first, and `0` for
    zero; `toString` on a byte, the model of `{}`, writes exactly those digits
    (`toString_uint8`). -/

namespace ToyDns

/-! ## Decimal numerals -/

/-- The decimal numeral of `n`, as `{}` formats an unsigned integer: its base-10 digits, most
    significant first, and `0` for zero. -/
def decimal (n : Nat) : List Char :=
  if n = 0 then ['0'] else (Nat.digits 10 n).reverse.map Nat.digitChar

/-- The last digit comes off the end. -/
theorem decimal_eq (n : Nat) :
    decimal n = if n < 10 then [Nat.digitChar n]
      else decimal (n / 10) ++ [Nat.digitChar (n % 10)] := by
  rcases Nat.eq_zero_or_pos n with rfl | hpos
  · rfl
  split_ifs with h
  · simp [decimal, hpos.ne', Nat.digits_of_lt 10 n hpos.ne' h]
  · simp [decimal, hpos.ne', show n / 10 ≠ 0 by omega,
      Nat.digits_def' (by norm_num : 1 < 10) hpos]

theorem decimal_ne_nil (n : Nat) : decimal n ≠ [] := by
  rw [decimal_eq]; split <;> simp

/-- `Nat.toDigitsCore` with more fuel than its number puts the number's numeral in front of
    the digits it was given. -/
theorem toDigitsCore_ten {fuel n : Nat} (ds : List Char) (h : n < fuel) :
    Nat.toDigitsCore 10 fuel n ds = decimal n ++ ds := by
  induction fuel generalizing n ds with
  | zero => omega
  | succ fuel ih =>
    rw [Nat.toDigitsCore, decimal_eq]
    by_cases h10 : n < 10
    · simp [Nat.div_eq_of_lt h10, h10, Nat.mod_eq_of_lt h10]
    · have hdiv : n / 10 ≠ 0 := by omega
      simp only [hdiv, h10, if_false, ih _ (show n / 10 < fuel by omega), List.append_assoc]
      rfl

/-- **`{}` ON A BYTE IS ITS DECIMAL NUMERAL.** -/
theorem toString_uint8 (b : UInt8) : toString b = ⟨decimal b.toNat⟩ := by
  show (Nat.toDigits 10 b.toNat).asString = _
  rw [Nat.toDigits, toDigitsCore_ten [] (Nat.lt_succ_self _), List.append_nil]
  rfl

/-! ## The separator loop -/

/-- Dotted-decimal text: the numerals of the bytes, in order, with one `.` between each two. -/
def dottedDecimal (bs : Bytes) : String :=
  ⟨['.'].intercalate (bs.map fun b => decimal b.toNat)⟩

@[simp] theorem dottedDecimal_nil : dottedDecimal [] = "" := rfl

@[simp] theorem dottedDecimal_singleton (b : UInt8) : dottedDecimal [b] = ⟨decimal b.toNat⟩ :=
  String.ext (by simp [dottedDecimal, List.intercalate])

theorem dottedDecimal_cons_cons (a b : UInt8) (bs : Bytes) :
    dottedDecimal (a :: b :: bs) = ⟨decimal a.toNat⟩ ++ "." ++ dottedDecimal (b :: bs) :=
  String.ext (by simp [dottedDecimal, List.intercalate, List.intersperse_cons₂])

/-- The loop appends to the address it was given the dotted-decimal text of the bytes it has
    still to visit: a `.` goes after a byte exactly when another one follows. -/
theorem Record.ipAddress.go_eq (bs : Bytes) (address : String) :
    Record.ipAddress.go bs address = address ++ dottedDecimal bs := by
  induction bs generalizing address with
  | nil => exact (String.append_empty address).symm
  | cons datum rest ih =>
    rcases rest with _ | ⟨next, rest⟩
    · rw [Record.ipAddress.go, ih, dottedDecimal_singleton, toString_uint8]
      exact String.append_empty _
    · rw [Record.ipAddress.go, ih, dottedDecimal_cons_cons, toString_uint8]
      simp [String.append_assoc]

/-- **THE ADDRESS IS THE DOTTED DECIMAL OF THE DATA**, for data of every length. -/
theorem Record.ipAddress_eq (r : Record) : r.ipAddress = dottedDecimal r.data :=
  (Record.ipAddress.go_eq r.data "").trans (String.empty_append _)

example : Record.ipAddress ⟨[], .a, 1, 0, [93, 184, 216, 34]⟩ = "93.184.216.34" := by decide

/-! ## The servers the resolver asks -/

/-- The pass of the loop for `q` at `ip` in state `st`, with `fuel` left, refers it to the A
    record `r`, and the next pass starts in state `st'`: the first A record among the
    additionals of its reply, or the first A answer of the nested resolution of the name its
    first NS record delegates to. -/
inductive Query.Refers {σ : Type} (w : World σ) (q : Query) (seed : Option Nat) :
    Nat → String → σ → Record → σ → Prop
  | glue {fuel : Nat} {ip : String} {st st₁ : σ} {packet : Packet} {r : Record} :
      q.perform w (fuel + 1) ip seed st = (.ok packet, st₁) →
      getFirstARecord packet.answers = none →
      getFirstARecord packet.additionals = some r →
      q.Refers w seed (fuel + 1) ip st r st₁
  | delegation {fuel : Nat} {ip rootIp : String} {st st₁ st₂ st₃ : σ}
      {packet resolved : Packet} {nsRecord a : Record} {nameBytes : Bytes} {e : Nat}
      {name : Str} :
      q.perform w (fuel + 1) ip seed st = (.ok packet, st₁) →
      getFirstARecord packet.answers = none →
      getFirstARecord packet.additionals = none →
      getFirstNsRecord packet.authorities = some nsRecord →
      RecordName.readAndAdvance (fuel + 1) nsRecord.data 0 = .ok (nameBytes, e) →
      Str.fromUtf8 nameBytes = some name →
      RootServer.random w seed st₁ = (rootIp, st₂) →
      Query.resolveLoop w fuel ⟨name, .a⟩ seed rootIp st₂ = (.ok resolved, st₃) →
      getFirstARecord resolved.answers = some a →
      q.Refers w seed (fuel + 1) ip st a st₃

section Referrals

variable {σ : Type} {w : World σ} {q : Query} {seed : Option Nat}

/-- A referral is to an A record. -/
theorem Query.Refers.rType {fuel : Nat} {ip : String} {st st' : σ} {r : Record}
    (h : q.Refers w seed fuel ip st r st') : r.rType = .a := by
  cases h with
  | glue _ _ hg => exact getFirstRecord_rType hg
  | delegation _ _ _ _ _ _ _ _ hA => exact getFirstRecord_rType hA

/-- A pass the loop reaches is the one it started at, or the address of the A record that the
    last pass before it referred it to. -/
theorem Query.Reaches.eq_or_refers {fuel fuel' : Nat} {ip ip' : String} {st st' : σ}
    (h : q.Reaches w seed fuel ip st fuel' ip' st') :
    (fuel' = fuel ∧ ip' = ip ∧ st' = st) ∨
      ∃ fuel₀ ip₀ st₀ r, q.Reaches w seed fuel ip st (fuel₀ + 1) ip₀ st₀ ∧
        q.Refers w seed (fuel₀ + 1) ip₀ st₀ r st' ∧ fuel' = fuel₀ ∧ ip' = r.ipAddress := by
  induction h with
  | refl => exact .inl ⟨rfl, rfl, rfl⟩
  | glue hp ha hg _ ih =>
    rcases ih with ⟨rfl, rfl, rfl⟩ | ⟨f₀, ip₀, st₀, r₀, hr, hrefers, hf, hip⟩
    · exact .inr ⟨_, _, _, _, .refl, .glue hp ha hg, rfl, rfl⟩
    · exact .inr ⟨f₀, ip₀, st₀, r₀, .glue hp ha hg hr, hrefers, hf, hip⟩
  | delegation hp ha hg hns hname hstr hroot hres hA _ ih =>
    rcases ih with ⟨rfl, rfl, rfl⟩ | ⟨f₀, ip₀, st₀, r₀, hr, hrefers, hf, hip⟩
    · exact .inr ⟨_, _, _, _, .refl,
        .delegation hp ha hg hns hname hstr hroot hres hA, rfl, rfl⟩
    · exact .inr ⟨f₀, ip₀, st₀, r₀,
        .delegation hp ha hg hns hname hstr hroot hres hA hr, hrefers, hf, hip⟩

/-- **EVERY SERVER THE LOOP GOES ON TO IS THE DOTTED DECIMAL OF THE A RECORD IT WAS REFERRED
    TO**: after any number of passes the top-level loop asks the server it started at, or the
    address of the A record that the last pass on its way referred it to, glue or the answer
    of a nested resolution. -/
theorem Query.Reaches.next_eq_dottedDecimal {fuel fuel' : Nat} {ip ip' : String} {st st' : σ}
    (h : q.Reaches w seed fuel ip st fuel' ip' st') :
    ip' = ip ∨ ∃ fuel₀ ip₀ st₀ r, q.Reaches w seed fuel ip st (fuel₀ + 1) ip₀ st₀ ∧
      q.Refers w seed (fuel₀ + 1) ip₀ st₀ r st' ∧ r.rType = .a ∧ ip' = dottedDecimal r.data :=
  h.eq_or_refers.imp (fun h => h.2.1) fun ⟨f₀, ip₀, st₀, r, hr, hrefers, _, hip⟩ =>
    ⟨f₀, ip₀, st₀, r, hr, hrefers, hrefers.rType, hip.trans (Record.ipAddress_eq r)⟩

end Referrals

/-- **`ip_address` WRITES THE DOTTED DECIMAL**, and the resolver goes on to ask it. -/
theorem ipAddress_eq_dottedDecimal :
    (∀ r : Record, r.ipAddress = dottedDecimal r.data) ∧
      ∀ {σ : Type} {w : World σ} {q : Query} {seed : Option Nat} {fuel fuel' : Nat}
        {ip ip' : String} {st st' : σ}, q.Reaches w seed fuel ip st fuel' ip' st' →
        ip' = ip ∨ ∃ fuel₀ ip₀ st₀ r, q.Reaches w seed fuel ip st (fuel₀ + 1) ip₀ st₀ ∧
          q.Refers w seed (fuel₀ + 1) ip₀ st₀ r st' ∧ r.rType = .a ∧
          ip' = dottedDecimal r.data :=
  ⟨Record.ipAddress_eq, Query.Reaches.next_eq_dottedDecimal⟩

/-- A reply to `a` A with no answer and, among its additionals, the glue A record
    `93.184.216.34` for the root name. -/
def glueReply : Bytes :=
  [0, 0, 0x81, 0x80, 0, 1, 0, 0, 0, 0, 0, 1,
   1, 0x61, 0, 0, 1, 0, 1,
   0, 0, 1, 0, 1, 0, 0, 0, 60, 0, 4, 93, 184, 216, 34]

/-- What `glueReply` decodes to. -/
def gluePacket : Packet :=
  ⟨⟨0, 0x8180, 1, 0, 0, 1⟩, [⟨[0x61], .a, 1⟩], [], [], [⟨[], .a, 1, 60, [93, 184, 216, 34]⟩]⟩

theorem ipAddress_eq_dottedDecimal_glue :
    Query.Reaches (replying glueReply) ⟨nameA, .a⟩ none 3 "198.41.0.4" () 2 "93.184.216.34" () ∧
      ("93.184.216.34" = "198.41.0.4" ∨ ∃ fuel₀ ip₀ st₀ r,
        Query.Reaches (replying glueReply) ⟨nameA, .a⟩ none 3 "198.41.0.4" () (fuel₀ + 1) ip₀
          st₀ ∧
        Query.Refers (replying glueReply) ⟨nameA, .a⟩ none (fuel₀ + 1) ip₀ st₀ r () ∧
        r.rType = .a ∧ "93.184.216.34" = dottedDecimal r.data) :=
  have hs : Query.serialize ⟨nameA, .a⟩ 0 =
      .ok [0, 0, 0, 0, 0, 1, 0, 0, 0, 0, 0, 0, 1, 0x61, 0, 0, 1, 0, 1] := by decide
  have hp : Query.perform (replying glueReply) (2 + 1) ⟨nameA, .a⟩ "198.41.0.4" none () =
      (.ok gluePacket, ()) := Query.perform_replying_of_parse hs (by decide) (by decide)
  have hr : Query.Reaches (replying glueReply) ⟨nameA, .a⟩ none 3 "198.41.0.4" () 2
      "93.184.216.34" () :=
    (show Record.ipAddress ⟨[], .a, 1, 60, [93, 184, 216, 34]⟩ = "93.184.216.34" by decide) ▸
      .glue hp rfl rfl .refl
  ⟨hr, ipAddress_eq_dottedDecimal.2 hr⟩

/-! ## Reading the address back -/

/-- The value of a numeral, its digit characters read most significant first; `none` for text
    that is not a numeral. -/
def readDecimal (cs : List Char) : Option Nat :=
  if cs ≠ [] ∧ cs.all Char.isDigit then
    some (Nat.ofDigits 10 (cs.reverse.map fun c => c.toNat - '0'.toNat))
  else none

/-- Dotted-decimal text read back: the values of the numerals between its dots. -/
def readDotted (s : String) : Option (List Nat) :=
  (s.data.splitOn '.').mapM readDecimal

/-- A digit's character is a decimal digit, whose code is that of `0` plus the digit. -/
theorem digitChar_of_lt_ten :
    ∀ d < 10, (Nat.digitChar d).isDigit ∧ (Nat.digitChar d).toNat - '0'.toNat = d := by
  decide

theorem isDigit_of_mem_decimal {n : Nat} {c : Char} (h : c ∈ decimal n) : c.isDigit := by
  unfold decimal at h
  split at h
  · rw [List.mem_singleton.mp h]; rfl
  · obtain ⟨d, hd, rfl⟩ := List.mem_map.mp h
    exact (digitChar_of_lt_ten d (Nat.digits_lt_base (by norm_num) (List.mem_reverse.mp hd))).1

/-- A numeral reads back to its number. -/
theorem readDecimal_decimal (n : Nat) : readDecimal (decimal n) = some n := by
  rw [readDecimal,
    if_pos ⟨decimal_ne_nil n, List.all_eq_true.mpr fun _ => isDigit_of_mem_decimal⟩]
  rcases Nat.eq_zero_or_pos n with rfl | hpos
  · rfl
  have hdigits : ∀ d ∈ Nat.digits 10 n,
      ((fun c : Char => c.toNat - '0'.toNat) ∘ Nat.digitChar) d = d :=
    fun d hd => (digitChar_of_lt_ten d (Nat.digits_lt_base (by norm_num) hd)).2
  simp only [decimal, hpos.ne', if_false, List.map_reverse, List.reverse_reverse, List.map_map]
  rw [List.map_congr_left hdigits, List.map_id', Nat.ofDigits_digits]

theorem mapM_readDecimal (bs : Bytes) :
    (bs.map fun b => decimal b.toNat).mapM readDecimal = some (bs.map UInt8.toNat) := by
  induction bs with
  | nil => rfl
  | cons b bs ih => rw [List.map_cons, List.mapM_cons, readDecimal_decimal, ih]; rfl

/-- Dotted-decimal text of some bytes reads back to their values: no numeral holds a `.`. -/
theorem readDotted_dottedDecimal {bs : Bytes} (h : bs ≠ []) :
    readDotted (dottedDecimal bs) = some (bs.map UInt8.toNat) := by
  have hdot : ∀ l ∈ bs.map fun b => decimal b.toNat, '.' ∉ l := by
    simp only [List.mem_map]
    rintro _ ⟨b, -, rfl⟩ hc
    exact absurd (isDigit_of_mem_decimal hc) (by decide)
  rw [readDotted, dottedDecimal, List.splitOn_intercalate _ _ hdot (by simpa using h)]
  exact mapM_readDecimal bs

/-- **THE ADDRESS NAMES THE DATA**: the address of a record with data reads back, at its dots,
    to the values of the data's bytes. -/
theorem readDotted_ipAddress (r : Record) (h : r.data ≠ []) :
    readDotted r.ipAddress = some (r.data.map UInt8.toNat) := by
  rw [Record.ipAddress_eq]
  exact readDotted_dottedDecimal h

theorem readDotted_ipAddress_quad :
    [93, 184, 216, 34] ≠ ([] : Bytes) ∧
      readDotted (Record.ipAddress ⟨[], .a, 1, 0, [93, 184, 216, 34]⟩) = some [93, 184, 216, 34] :=
  ⟨by decide, readDotted_ipAddress ⟨[], .a, 1, 0, [93, 184, 216, 34]⟩ (by decide)⟩

end ToyDns
