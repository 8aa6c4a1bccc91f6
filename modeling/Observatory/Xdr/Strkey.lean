import Mathlib.Algebra.Group.Nat.Defs
import Observatory.Xdr.Value

/-!
# Strkey renderings

`stellar-xdr` prints accounts, contracts and other identifiers as strkeys
(`G…`, `M…`, `C…`, `B…`, `L…`).  The printer belongs to that crate, so the
model takes it as a parameter, the class `Strkey`; every text the analyser
builds is built from it.

`Strkey.standard` is the published encoding (version byte, payload, CRC16,
base32), for runs on concrete inputs.  The parsers of accounts and contracts belong
to the same crate; `AccountParser.Inverse` and `ContractParser` say that they undo the
printer, and `Strkey.parseAccount` and `Strkey.parseContract` do for the published
encoding.
-/

namespace Observatory

/-- The strkey printer. -/
class Strkey where
  /-- A plain account, `G…`. -/
  ed25519 : Uint256 → String
  /-- A muxed account, `M…`. -/
  muxed : MuxedEd25519 → String
  /-- A contract, `C…`. -/
  contract : ContractId → String
  /-- A claimable balance, `B…`. -/
  claimableBalance : Hash → String
  /-- A liquidity pool, `L…`. -/
  liquidityPool : Hash → String

section Display

variable [Strkey]

/-- `MuxedAccount::to_string`. -/
def MuxedAccount.display : MuxedAccount → String
  | .ed25519 key => Strkey.ed25519 key
  | .muxedEd25519 m => Strkey.muxed m

/-- `ScAddress::to_string`. -/
def ScAddress.display : ScAddress → String
  | .account key => Strkey.ed25519 key
  | .contract id => Strkey.contract id
  | .muxedAccount m => Strkey.muxed m
  | .claimableBalance id => Strkey.claimableBalance id
  | .liquidityPool id => Strkey.liquidityPool id

/-- `str::parse::<MuxedAccount>`. -/
abbrev AccountParser : Type := String → Option MuxedAccount

/-- The parser reads what is printed, and nothing else. -/
structure AccountParser.Inverse (parse : AccountParser) : Prop where
  /-- A printed account is read back. -/
  parse_display : ∀ a : MuxedAccount, parse a.display = some a
  /-- What is read is printed that way. -/
  display_of_parse : ∀ {s : String} {a : MuxedAccount}, parse s = some a → a.display = s

instance : ToString ContractId := ⟨Strkey.contract⟩

instance : ToString ScAddress := ⟨ScAddress.display⟩

/-- `str::parse::<ContractId>`: it reads what is printed. -/
structure ContractParser where
  parse : String → Option ContractId
  /-- A printed contract is read back. -/
  parse_toString : ∀ id : ContractId, parse (toString id) = some id

end Display

namespace Strkey

/-- One byte of the CRC16-XModem checksum. -/
def crcByte (crc : UInt16) (b : UInt8) : UInt16 :=
  (List.range 8).foldl
    (fun c _ => if c &&& 0x8000 = 0 then c <<< 1 else (c <<< 1) ^^^ 0x1021)
    (crc ^^^ (UInt16.ofNat b.toNat <<< 8))

/-- The checksum of a byte string. -/
def crc16 (bytes : List UInt8) : UInt16 := bytes.foldl crcByte 0

/-- The bits of a byte, most significant first. -/
def bits (b : UInt8) : List Bool := (List.range 8).map (fun i => b.toNat.testBit (7 - i))

/-- The base32 alphabet. -/
def alphabet : List Char := "ABCDEFGHIJKLMNOPQRSTUVWXYZ234567".toList

/-- Base32 without padding: five bits to a character, zero-filled at the end. -/
def base32Bits : List Bool → List Char
  | [] => []
  | a :: rest =>
      match rest with
      | b :: c :: d :: e :: more => digit [a, b, c, d, e] :: base32Bits more
      | _ => [digit ((a :: rest ++ List.replicate 4 false).take 5)]
where
  /-- The character of five bits. -/
  digit (five : List Bool) : Char :=
    alphabet.getD (five.foldl (fun n bit => 2 * n + bit.toNat) 0) 'A'

/-- A strkey: the version byte and the payload, followed by their checksum. -/
def encode (version : UInt8) (payload : List UInt8) : String :=
  let body := version :: payload
  let crc := crc16 body
  String.ofList (base32Bits
    ((body ++ [UInt8.ofNat (crc.toNat % 256), UInt8.ofNat (crc.toNat / 256)]).flatMap bits))

/-- A 64-bit id, most significant byte first. -/
def idBytes (id : UInt64) : List UInt8 :=
  (List.range 8).map (fun i => (id >>> UInt64.ofNat (8 * (7 - i))).toUInt8)

/-- The published encoding. -/
@[reducible] def standard : Strkey where
  ed25519 key := encode 48 key.bytes
  muxed m := encode 96 (m.ed25519.bytes ++ idBytes m.id)
  contract id := encode 16 id.hash.bytes
  claimableBalance id := encode 8 (0 :: id.bytes)
  liquidityPool id := encode 88 id.bytes

/-! ## The length of a strkey -/

theorem length_bits (b : UInt8) : (bits b).length = 8 := by
  rw [bits, List.length_map, List.length_range]

theorem length_idBytes (id : UInt64) : (idBytes id).length = 8 := by
  rw [idBytes, List.length_map, List.length_range]

theorem length_base32Bits_le (l : List Bool) : (base32Bits l).length ≤ l.length := by
  induction l using base32Bits.induct with
  | case1 => exact Nat.le_refl 0
  | case2 a b c d e more ih =>
      rw [base32Bits]
      simp only [List.length_cons]
      omega
  | case3 a rest hrest =>
      rw [base32Bits]
      · exact Nat.succ_le_succ (Nat.zero_le _)
      · exact hrest

/-- Eight bits to a byte, with the version and the checksum. -/
theorem length_encode_le (version : UInt8) (payload : List UInt8) :
    (encode version payload).length ≤ 8 * (payload.length + 3) := by
  rw [encode, String.length_ofList]
  refine Nat.le_trans (length_base32Bits_le _) ?_
  rw [List.length_flatMap]
  simp [length_bits]
  omega

theorem length_standard_le (a : ScAddress) : (@ScAddress.display standard a).length ≤ 344 := by
  have hplain : ∀ (version : UInt8) (h : Hash), (encode version h.bytes).length ≤ 344 := by
    intro version h
    have hlength := length_encode_le version h.bytes
    rw [h.length_eq] at hlength
    omega
  cases a with
  | account key => exact hplain 48 key
  | contract id => exact hplain 16 id.hash
  | muxedAccount m =>
      have hlength := length_encode_le 96 (m.ed25519.bytes ++ idBytes m.id)
      rw [List.length_append, length_idBytes, m.ed25519.length_eq] at hlength
      exact hlength
  | claimableBalance id =>
      have hlength := length_encode_le 8 (0 :: id.bytes)
      rw [List.length_cons, id.length_eq] at hlength
      show (encode 8 (0 :: id.bytes)).length ≤ 344
      omega
  | liquidityPool id => exact hplain 88 id

/-- The five bits of a character. -/
def fiveBits (c : Char) : List Bool :=
  (List.range 5).map (fun i => (alphabet.idxOf c).testBit (4 - i))

/-- Bytes from their bits; what is left at the end is dropped. -/
def toBytes : List Bool → List UInt8
  | a :: b :: c :: d :: e :: f :: g :: h :: rest =>
      UInt8.ofNat ([a, b, c, d, e, f, g, h].foldl (fun n bit => 2 * n + bit.toNat) 0) ::
        toBytes rest
  | _ => []

/-- An id from its bytes. -/
def idOf (bytes : List UInt8) : UInt64 :=
  UInt64.ofNat (bytes.foldl (fun n b => 256 * n + b.toNat) 0)

/-- The account that bytes are, by their version. -/
def accountOf : List UInt8 → Option MuxedAccount
  | [] => none
  | version :: rest =>
      if version = 48 then (Hash.tryFrom (rest.take 32)).map .ed25519
      else if version = 96 then
        (Hash.tryFrom (rest.take 32)).map
          (fun key => .muxedEd25519 ⟨idOf ((rest.drop 32).take 8), key⟩)
      else none

/-- The account a strkey encodes; a text that is not its strkey is refused. -/
def parseAccount (s : String) : Option MuxedAccount :=
  (accountOf (toBytes (s.toList.flatMap fiveBits))).filter
    (fun a => @MuxedAccount.display standard a = s)

theorem fiveBits_digit (a b c d e : Bool) :
    fiveBits (base32Bits.digit [a, b, c, d, e]) = [a, b, c, d, e] := by
  revert a b c d e
  decide

/-- The bits are read back, with the fill behind them. -/
theorem fiveBits_base32Bits (l : List Bool) : ∃ k, k < 5 ∧
    (base32Bits l).flatMap fiveBits = l ++ List.replicate k false := by
  induction l using base32Bits.induct with
  | case1 => exact ⟨0, by decide, rfl⟩
  | case2 a b c d e more ih =>
      obtain ⟨k, hk, hbits⟩ := ih
      refine ⟨k, hk, ?_⟩
      rw [base32Bits, List.flatMap_cons, fiveBits_digit, hbits]
      rfl
  | case3 a rest hrest =>
      rw [base32Bits]
      · match rest, hrest with
        | [], _ => exact ⟨4, by decide, by rw [List.flatMap_singleton]; exact fiveBits_digit ..⟩
        | [_], _ => exact ⟨3, by decide, by rw [List.flatMap_singleton]; exact fiveBits_digit ..⟩
        | [_, _], _ => exact ⟨2, by decide, by rw [List.flatMap_singleton]; exact fiveBits_digit ..⟩
        | [_, _, _], _ =>
            exact ⟨1, by decide, by rw [List.flatMap_singleton]; exact fiveBits_digit ..⟩
        | b :: c :: d :: e :: more, hrest => exact absurd rfl (hrest b c d e more)
      · exact hrest

theorem toBytes_bits (b : UInt8) (rest : List Bool) :
    toBytes (bits b ++ rest) = b :: toBytes rest := by
  have hbyte : ∀ n < 256, UInt8.ofNat ((bits (UInt8.ofNat n)).foldl
      (fun n bit => 2 * n + bit.toNat) 0) = UInt8.ofNat n := by decide +kernel
  have hb := hbyte b.toNat b.toNat_lt
  rw [UInt8.ofNat_toNat] at hb
  show UInt8.ofNat ((bits b).foldl (fun n bit => 2 * n + bit.toNat) 0) :: toBytes rest = _
  rw [hb]

theorem toBytes_flatMap_bits (bytes : List UInt8) {k : Nat} (hk : k < 5) :
    toBytes (bytes.flatMap bits ++ List.replicate k false) = bytes := by
  induction bytes with
  | nil =>
      rw [List.flatMap_nil, List.nil_append]
      match k, hk with
      | 0, _ | 1, _ | 2, _ | 3, _ | 4, _ => rfl
  | cons b bytes ih => rw [List.flatMap_cons, List.append_assoc, toBytes_bits, ih]

/-- The bytes of a strkey are read back. -/
theorem toBytes_encode (version : UInt8) (payload : List UInt8) :
    ∃ checksum, toBytes ((encode version payload).toList.flatMap fiveBits)
      = version :: (payload ++ checksum) := by
  unfold encode
  dsimp only
  rw [String.toList_ofList]
  obtain ⟨k, hk, hbits⟩ := fiveBits_base32Bits ((version :: payload ++
    [UInt8.ofNat ((crc16 (version :: payload)).toNat % 256),
      UInt8.ofNat ((crc16 (version :: payload)).toNat / 256)]).flatMap bits)
  rw [hbits, toBytes_flatMap_bits _ hk]
  exact ⟨_, rfl⟩

/-- The bytes of an id are its digits to the base 256. -/
theorem toNat_idByte (id : UInt64) {k : Nat} (hk : k < 64) :
    (id >>> UInt64.ofNat k).toUInt8.toNat = id.toNat / 2 ^ k % 256 := by
  have hshift : (UInt64.ofNat k).toNat % 64 = k := by
    rw [UInt64.toNat_ofNat_of_lt' (Nat.lt_trans hk (by decide)), Nat.mod_eq_of_lt hk]
  rw [UInt64.toNat_toUInt8, UInt64.toNat_shiftRight, hshift, Nat.shiftRight_eq_div_pow]

theorem idOf_idBytes (id : UInt64) : idOf (idBytes id) = id := by
  have hid := id.toNat_lt
  have hbytes : (idBytes id).foldl (fun n b => 256 * n + b.toNat) 0 = id.toNat := by
    have hdigit : ∀ k ∈ [56, 48, 40, 32, 24, 16, 8, 0],
        (id >>> UInt64.ofNat k).toUInt8.toNat = id.toNat / 2 ^ k % 256 := by
      intro k hk
      exact toNat_idByte id (by revert k; decide)
    simp only [List.forall_mem_cons] at hdigit
    obtain ⟨h₀, h₁, h₂, h₃, h₄, h₅, h₆, h₇, -⟩ := hdigit
    simp only [idBytes, List.range, List.range.loop, List.map_cons, List.map_nil,
      List.foldl_cons, List.foldl_nil, Nat.reduceSub, Nat.reduceMul]
    have htop : 256 * 0 + id.toNat / 2 ^ 56 % 256 = id.toNat / 2 ^ 56 := by
      rw [Nat.mul_zero, Nat.zero_add]
      exact Nat.mod_eq_of_lt (Nat.div_lt_of_lt_mul hid)
    have hstep : ∀ k, 256 * (id.toNat / 2 ^ (k + 8)) + id.toNat / 2 ^ k % 256
        = id.toNat / 2 ^ k := by
      intro k
      rw [Nat.pow_add, ← Nat.div_div_eq_div_mul]
      exact Nat.div_add_mod _ 256
    rw [h₀, h₁, h₂, h₃, h₄, h₅, h₆, h₇, htop, hstep 48, hstep 40, hstep 32, hstep 24, hstep 16,
      hstep 8, hstep 0, Nat.pow_zero, Nat.div_one]
  rw [idOf, hbytes, UInt64.ofNat_toNat]

/-- An account is the one its bytes are, whatever checksum follows. -/
theorem accountOf_encoded (a : MuxedAccount) : ∃ version payload,
    @MuxedAccount.display standard a = encode version payload ∧
      ∀ checksum, accountOf (version :: (payload ++ checksum)) = some a := by
  cases a with
  | ed25519 key =>
      refine ⟨48, key.bytes, rfl, fun checksum => ?_⟩
      rw [accountOf, if_pos rfl, ← key.length_eq, List.take_left, Hash.tryFrom_bytes]
      rfl
  | muxedEd25519 m =>
      refine ⟨96, m.ed25519.bytes ++ idBytes m.id, rfl, fun checksum => ?_⟩
      rw [accountOf, if_neg (by decide), if_pos rfl, List.append_assoc, ← m.ed25519.length_eq,
        List.take_left, List.drop_left, ← length_idBytes m.id, List.take_left, idOf_idBytes,
        Hash.tryFrom_bytes]
      rfl

/-- **The published decoding** undoes the published encoding. -/
theorem inverse_parseAccount : @AccountParser.Inverse standard parseAccount := by
  refine @AccountParser.Inverse.mk standard parseAccount ?_ ?_
  · intro a
    obtain ⟨version, payload, hdisplay, haccount⟩ := accountOf_encoded a
    obtain ⟨checksum, hbytes⟩ := toBytes_encode version payload
    rw [parseAccount, hdisplay, hbytes, haccount]
    exact Option.filter_some_pos (by rw [decide_eq_true_eq]; exact hdisplay)
  · intro s a h
    exact of_decide_eq_true (Option.filter_eq_some_iff.mp h).2

/-- The contract that bytes are. -/
def contractOf : List UInt8 → Option ContractId
  | [] => none
  | version :: rest =>
      if version = 16 then (Hash.tryFrom (rest.take 32)).map ContractId.mk else none

/-- The contract a strkey encodes; a text that is not its strkey is refused. -/
def parseContract (s : String) : Option ContractId :=
  (contractOf (toBytes (s.toList.flatMap fiveBits))).filter (fun id => encode 16 id.hash.bytes = s)

/-- A printed contract is read back. -/
theorem parseContract_encode (id : ContractId) :
    parseContract (encode 16 id.hash.bytes) = some id := by
  obtain ⟨checksum, hbytes⟩ := toBytes_encode 16 id.hash.bytes
  have hcontract : contractOf (16 :: (id.hash.bytes ++ checksum)) = some id := by
    rw [contractOf, if_pos rfl, ← id.hash.length_eq, List.take_left, Hash.tryFrom_bytes]
    rfl
  rw [parseContract, hbytes, hcontract]
  exact Option.filter_some_pos (decide_eq_true rfl)

/-- The published decoding of contracts. -/
def contractParser : @ContractParser standard :=
  @ContractParser.mk standard parseContract parseContract_encode

end Strkey

end Observatory
