import GravityBridge.Lib.Reading
import GravityBridge.Lib.Utf8
import GravityBridge.Orchestrator.MessageSignatures

/-!
# Decoding the events of the contract

The orchestrator reads the data of an event at fixed positions and does not follow
the offsets in them. What the contract encodes is read back as it was. Other bytes can
make two of the three decoders panic, and the length of the second array of a validator
set is never compared with that of the first.
-/

namespace GravityBridge.Orchestrator

open Lib.Fallible Lib.ByteString Lib.Abi Lib.Reading List
open Lib.Utf8 GravityBridge.Types Contract

/-- The bytes of a slice, which take at most `isize::MAX` bytes of memory. -/
structure ByteSlice where
  bytes : Bytes
  short : bytes.length < 2 ^ 63

structure InvalidEventLogError where
  message : String
  deriving DecidableEq, Repr

abbrev Decoded (α : Type) := Outcome InvalidEventLogError α

/-- The name is the source's; the number is a thousand times larger. -/
def oneMegabyte : Nat := 1000 ^ 3

def maxCosmosDenomLen : Nat := 256

/-- `Uint256::from_be_bytes`. -/
def fromBeBytes (bytes : Bytes) : U256 := Fin.ofNat (2 ^ 256) (uint bytes)

/-- `EthAddress::from_slice`. -/
def fromSlice (bytes : Bytes) : Option EthAddress :=
  if bytes.length = 20 then some (Fin.ofNat (2 ^ 160) (uint bytes)) else none

def readUint (data : Bytes) (start stop : Nat) : Decoded U256 := fromBeBytes <$> slice data start stop

/-- `number.to_string().parse().unwrap()`. -/
def parse (bits : Nat) (number : U256) : Decoded (Fin (2 ^ bits)) :=
  if fits : number.val < 2 ^ bits then pure ⟨number.val, fits⟩
  else panicking "called `Result::unwrap()` on an `Err` value: ParseIntError"

/-! ## The decoders -/

structure ValsetDataBytes where
  eventNonce : U64
  rewardAmount : U256
  rewardToken : Option EthAddress
  members : List ValsetMember
  deriving DecidableEq, Repr

/-- One pass of the loop over the members. -/
def decodeMember (input : Bytes) (ethAddressesOffset powersOffset index : Nat) :
    Decoded ValsetMember := do
  let powerStart ← addUsize (← mulUsize index 32) powersOffset
  let powerEnd ← addUsize powerStart 32
  let addressStart ← addUsize (← mulUsize index 32) ethAddressesOffset
  let addressEnd ← addUsize addressStart 32
  require (addressEnd ≤ input.length ∧ powerEnd ≤ input.length) ⟨"too short for dynamic data"⟩
  let power ← readUint input powerStart powerEnd
  let ethAddress ← fromOption ⟨"Ethereum Address parsing error, probably incorrect parsing"⟩
    (fromSlice (← slice input (← addUsize addressStart 12) addressEnd))
  require (power.val < 2 ^ 64) ⟨"Power greater than u64::MAX, probably incorrect parsing"⟩
  pure ⟨← parse 64 power, ethAddress⟩

/-- `ValsetUpdatedEvent::decode_data_bytes`. -/
def decodeValsetUpdated (event : ByteSlice) : Decoded ValsetDataBytes := do
  let input := event.bytes
  require (6 * 32 ≤ input.length) ⟨"too short for ValsetUpdatedEventData"⟩
  let eventNonce ← readUint input 0 32
  require (eventNonce.val < 2 ^ 64) ⟨"Nonce overflow, probably incorrect parsing"⟩
  let eventNonce ← parse 64 eventNonce
  let rewardAmount ← readUint input 32 64
  let rewardTokenData ← slice input 64 96
  let rewardToken ← fromOption ⟨"Bad reward address, must be incorrect parsing"⟩
    (fromSlice (← slice rewardTokenData 12 rewardTokenData.length))
  let rewardToken := if rewardToken = zeroAddress then none else some rewardToken
  let ethAddressesOffset := 192
  require (ethAddressesOffset ≤ input.length) ⟨"too short for dynamic data"⟩
  let lenEthAddresses ← readUint input 160 192
  require (lenEthAddresses.val < 2 ^ 64) ⟨"Ethereum array len overflow, probably incorrect parsing"⟩
  let lenEthAddresses ← parse 64 lenEthAddresses
  let indexStart ← mulUsize (← addUsize 6 lenEthAddresses.val) 32
  let powersOffset ← addUsize indexStart 32
  require (powersOffset ≤ input.length) ⟨"too short for dynamic data"⟩
  let lenPowers ← readUint input indexStart powersOffset
  require (lenPowers.val < 2 ^ 64) ⟨"Powers array len overflow, probably incorrect parsing"⟩
  -- The source parses the length of the addresses a second time here.
  let lenPowers := lenEthAddresses
  require (lenPowers = lenEthAddresses) ⟨"Array len mismatch, probably incorrect parsing"⟩
  let validators ← (range lenEthAddresses.val).mapM
    (decodeMember input ethAddressesOffset powersOffset)
  -- An unsorted set is only traced.
  pure ⟨eventNonce, rewardAmount, rewardToken, validators⟩

structure SendToCosmosEventData where
  destination : Bytes
  amount : U256
  eventNonce : U256
  deriving DecidableEq, Repr

/-- `SendToCosmosEvent::decode_data_bytes`. -/
def decodeSendToCosmos (event : ByteSlice) : Decoded SendToCosmosEventData := do
  let data := event.bytes
  require (4 * 32 ≤ data.length) ⟨"too short for SendToCosmosEventData"⟩
  let amount ← readUint data 32 64
  let eventNonce ← readUint data 64 96
  let destinationStrLen ← readUint data 96 128
  require (destinationStrLen.val < 2 ^ 32) ⟨"denom length overflow, probably incorrect parsing"⟩
  let destinationStrLen ← parse 64 destinationStrLen
  let destinationStrEnd ← addUsize 128 destinationStrLen.val
  require (destinationStrEnd ≤ data.length) ⟨"Incorrect length for dynamic data"⟩
  let destination ← slice data 128 destinationStrEnd
  if isUtf8 destination = false then pure ⟨[], amount, eventNonce⟩
  else if oneMegabyte < (trim destination).length then pure ⟨[], amount, eventNonce⟩
  else pure ⟨trim destination, amount, eventNonce⟩

structure Erc20DeployedEventData where
  cosmosDenom : Bytes
  name : Bytes
  symbol : Bytes
  decimals : Fin (2 ^ 8)
  eventNonce : U64
  deriving DecidableEq, Repr

/-- The next text behind an end position, with its own end. The name and the symbol are read
alike, with their own messages. -/
def decodeText (data : Bytes) (previousEnd : Nat) (overflow invalid large : String) :
    Decoded (Bytes × Nat) := do
  -- The next word that starts at a multiple of thirty-two.
  let indexStart ← mulUsize ((previousEnd + 31) / 32) 32
  let indexEnd ← addUsize indexStart 32
  require (indexEnd ≤ data.length) ⟨"Erc20DeployedEvent dynamic data too short"⟩
  let textLen ← readUint data indexStart indexEnd
  require (textLen.val < 2 ^ 32) ⟨overflow⟩
  let textLen ← parse 64 textLen
  let textEnd ← addUsize indexEnd textLen.val
  require (textEnd ≤ data.length) ⟨"Erc20DeployedEvent dynamic data too short"⟩
  let text ← slice data indexEnd textEnd
  require (isUtf8 text = true) ⟨invalid⟩
  require (text.length ≤ oneMegabyte) ⟨large⟩
  pure (text, textEnd)

/-- `Erc20DeployedEvent::decode_data_bytes`. -/
def decodeErc20Deployed (event : ByteSlice) : Decoded Erc20DeployedEventData := do
  let data := event.bytes
  require (6 * 32 ≤ data.length) ⟨"too short for Erc20DeployedEventData"⟩
  let decimals ← readUint data 96 128
  require (decimals.val < 2 ^ 8) ⟨"Decimals overflow, probably incorrect parsing"⟩
  let decimals ← parse 8 decimals
  let nonce ← readUint data 128 160
  require (nonce.val < 2 ^ 64) ⟨"Nonce overflow, probably incorrect parsing"⟩
  let eventNonce ← parse 64 nonce
  let denomLen ← readUint data 160 192
  require (denomLen.val < 2 ^ 32) ⟨"denom length overflow, probably incorrect parsing"⟩
  let denomLen ← parse 64 denomLen
  let denomEnd ← addUsize 192 denomLen.val
  -- There is no check of the length before this read.
  let denom ← slice data 192 denomEnd
  require (isUtf8 denom = true) ⟨"denom has invalid utf8"⟩
  require (denom ≠ []) ⟨"denom is empty"⟩
  require (denom.length ≤ maxCosmosDenomLen) ⟨"denom exceeds maximum length"⟩
  require (∀ byte ∈ denom, byte < 0x80) ⟨"denom has non-ASCII characters"⟩
  require (denom.length ≤ oneMegabyte) ⟨"denom exceeds maximum size"⟩
  let (name, nameEnd) ← decodeText data denomEnd
    "ERC20 Name length overflow, probably incorrect parsing"
    "ERC20 Name has invalid UTF-8 characters" "ERC20 Name exceeds maximum size"
  require (name.length ≤ oneMegabyte) ⟨"ERC20 Name exceeds maximum size"⟩
  let (symbol, _) ← decodeText data nameEnd "Symbol length overflow, probably incorrect parsing"
    "ERC20 Symbol has invalid UTF-8 characters" "ERC20 Symbol exceeds maximum size"
  pure ⟨denom, name, symbol, decimals, eventNonce⟩

/-! ## Reading words -/

/-- The word at an index. -/
def wordAt (data : Bytes) (index : Nat) : U256 :=
  fromBeBytes ((data.take (index * 32 + 32)).drop (index * 32))

/-- The address in the last twenty bytes of the word at an index. -/
def addressAt (data : Bytes) (index : Nat) : EthAddress :=
  Fin.ofNat (2 ^ 160) (uint ((data.take (index * 32 + 32)).drop (index * 32 + 12)))

theorem readUint_eq_ok {data : Bytes} {start stop : Nat} {result : U256} :
    readUint data start stop = .ok result ↔
      (start ≤ stop ∧ stop ≤ data.length) ∧ fromBeBytes ((data.take stop).drop start) = result := by
  simp only [readUint, map_eq_ok, slice_eq_ok]
  constructor
  · rintro ⟨_, ⟨inside, rfl⟩, rfl⟩
    exact ⟨inside, rfl⟩
  · rintro ⟨inside, rfl⟩
    exact ⟨_, ⟨inside, rfl⟩, rfl⟩

theorem parse_eq_ok {bits : Nat} {number : U256} {result : Fin (2 ^ bits)} :
    parse bits number = .ok result ↔ number.val = result.val := by
  unfold parse
  split_ifs with fits
  · simp only [pure_eq_ok, Fin.ext_iff]
  · have bound := result.isLt
    simp only [panicking_ne_ok, false_iff]
    omega

variable {α : Type}

theorem calm_readUint_bind {data : Bytes} {start stop : Nat} {next : U256 → Decoded α} :
    Calm (readUint data start stop >>= next) ↔
      (start ≤ stop ∧ stop ≤ data.length) ∧ Calm
      (next (fromBeBytes ((data.take stop).drop start))) := by
  rw [readUint, map_eq_pure_bind, bind_assoc, calm_slice_bind, pure_bind]

theorem calm_parse_bind {bits : Nat} {number : U256} {next : Fin (2 ^ bits) → Decoded α} :
    Calm (parse bits number >>= next) ↔
      ∃ fits : number.val < 2 ^ bits, Calm (next ⟨number.val, fits⟩) := by
  unfold parse
  split_ifs with fits
  · rw [pure_bind]
    exact ⟨fun calm => ⟨fits, calm⟩, fun ⟨_, calm⟩ => calm⟩
  · refine iff_of_false (fun calm => ?_) fun ⟨small, _⟩ => fits small
    exact calm [_] _ rfl mem_cons_self

theorem calm_fromOption_bind {β : Type} {cause : InvalidEventLogError} {lookup : Option α}
    {next : α → Decoded β} :
    Calm (fromOption cause lookup >>= next) ↔ ∀ value, lookup = some value → Calm (next value) := by
  simp only [calm_bind, fromOption_eq_ok]
  exact and_iff_right fun _ => avoids_fromOption

theorem fromSlice_addressAt {data : Bytes} {index : Nat} (inside : index * 32 + 32 ≤ data.length) :
    fromSlice ((data.take (index * 32 + 32)).drop (index * 32 + 12)) =
      some (addressAt data index) := by
  have twenty : ((data.take (index * 32 + 32)).drop (index * 32 + 12)).length = 20 := by
    rw [length_drop, length_take, Nat.min_eq_left inside]
    omega
  rw [fromSlice, if_pos twenty, addressAt]

/-! ## Which bytes are accepted -/

/-- The length of the addresses in a validator set. -/
def addressesLength (data : Bytes) : Nat := (wordAt data 5).val

def memberAt (data : Bytes) (index : Nat) : ValsetMember :=
  ⟨Fin.ofNat (2 ^ 64) (wordAt data (7 + addressesLength data + index)).val,
    addressAt data (6 + index)⟩

/-- What a member needs to be read. -/
def MemberReads (data : Bytes) (index : Nat) : Prop :=
  (8 + addressesLength data + index) * 32 ≤ data.length ∧
    (wordAt data (7 + addressesLength data + index)).val < 2 ^ 64

section

variable {data : Bytes} {index : Nat}

theorem decodeMember_eq_ok (short : data.length < 2 ^ 63)
    (powers : (6 + addressesLength data) * 32 + 32 ≤ data.length)
    (inside : index < addressesLength data) (member : ValsetMember) :
    decodeMember data 192 ((6 + addressesLength data) * 32 + 32) index = .ok member ↔
      MemberReads data index ∧ memberAt data index = member := by
  have powerStart : index * 32 + ((6 + addressesLength data) * 32 + 32) =
      (7 + addressesLength data + index) * 32 := by
    omega
  have addressStart : index * 32 + 192 = (6 + index) * 32 := by omega
  simp only [decodeMember, bind_eq_ok, mulUsize_eq_ok, addUsize_eq_ok, require_eq_ok,
    readUint_eq_ok, fromOption_eq_ok, slice_eq_ok, parse_eq_ok, pure_eq_ok, and_assoc,
    exists_and_left, exists_eq_left', exists_const, powerStart, addressStart,
    fromSlice_addressAt (show (6 + index) * 32 + 32 ≤ data.length by omega), Option.some.injEq]
  constructor
  · rintro ⟨-, -, -, -, -, -, -, powerInside, -, -, -, -, -, fits, power, same, rfl⟩
    exact ⟨⟨by omega, fits⟩, by rw [memberAt, wordAt, same, Fin.ofNat_val_eq_self]⟩
  · rintro ⟨⟨powerInside, fits⟩, rfl⟩
    exact ⟨by omega, by omega, by omega, by omega, by omega, by omega, by omega, by omega, by omega,
      by omega, by omega, by omega, by omega, fits, Fin.ofNat (2 ^ 64) _,
      (Nat.mod_eq_of_lt fits).symm, rfl⟩

theorem calm_decodeMember (short : data.length < 2 ^ 63)
    (powers : (6 + addressesLength data) * 32 + 32 ≤ data.length)
    (inside : index < addressesLength data) :
    Calm (decodeMember data 192 ((6 + addressesLength data) * 32 + 32) index) := by
  simp only [decodeMember, calm_mulUsize_bind, calm_addUsize_bind, calm_require_bind,
    calm_readUint_bind, calm_slice_bind, calm_fromOption_bind, calm_parse_bind, calm_pure,
    exists_prop, and_true]
  refine ⟨by omega, by omega, by omega, by omega, by omega, by omega,
    fun ends => ⟨by omega, by omega, by omega, ?_⟩⟩
  exact fun _ _ fits => fits

/-- The loop over the members. -/
theorem decodeMembers_eq_ok (short : data.length < 2 ^ 63)
    (powers : (6 + addressesLength data) * 32 + 32 ≤ data.length) {members : List ValsetMember} :
    (range (addressesLength data)).mapM
    (decodeMember data 192 ((6 + addressesLength data) * 32 + 32)) = .ok members ↔
      (∀ index < addressesLength data, MemberReads data index) ∧
        (range (addressesLength data)).map (memberAt data) = members := by
  have passes : ∀ index ∈ range (addressesLength data), ∀ member,
      decodeMember data 192 ((6 + addressesLength data) * 32 + 32) index = .ok member ↔
        MemberReads data index ∧ memberAt data index = member :=
    fun _ inside member => decodeMember_eq_ok short powers (mem_range.mp inside) member
  rw [mapM_eq_ok_iff passes]
  simp only [mem_range]

end

/-- The bytes that the decoder of validator sets accepts. -/
structure ValsetReads (data : Bytes) : Prop where
  long : 192 ≤ data.length
  eventNonce : (wordAt data 0).val < 2 ^ 64
  powersInside : (7 + addressesLength data) * 32 ≤ data.length
  powersLength : (wordAt data (6 + addressesLength data)).val < 2 ^ 64
  members : ∀ index < addressesLength data, MemberReads data index

def valsetAt (data : Bytes) : ValsetDataBytes where
  eventNonce := Fin.ofNat (2 ^ 64) (wordAt data 0).val
  rewardAmount := wordAt data 1
  rewardToken := if addressAt data 2 = zeroAddress then none else some (addressAt data 2)
  members := (range (addressesLength data)).map (memberAt data)

/-- The reward token is the address in the third word. -/
theorem rewardToken_read {data : Bytes} (long : 192 ≤ data.length) :
    12 ≤ ((data.take 96).drop 64).length ∧
      fromSlice ((((data.take 96).drop 64).take ((data.take 96).drop 64).length).drop 12) =
        some (addressAt data 2) := by
  have third : (((data.take 96).drop 64).take ((data.take 96).drop 64).length).drop 12 =
      (data.take (2 * 32 + 32)).drop (2 * 32 + 12) := by
    rw [take_length, drop_drop]
  rw [third, fromSlice_addressAt (by omega), length_drop, length_take]
  exact ⟨by omega, rfl⟩

variable {event : ByteSlice}

theorem decodeValsetUpdated_eq_ok {result : ValsetDataBytes} :
    decodeValsetUpdated event = .ok result ↔ ValsetReads event.bytes ∧
      valsetAt event.bytes = result := by
  obtain ⟨data, short⟩ := event
  simp only [decodeValsetUpdated, bind_eq_ok, mulUsize_eq_ok, addUsize_eq_ok, require_eq_ok,
    readUint_eq_ok, fromOption_eq_ok, slice_eq_ok, parse_eq_ok, pure_eq_ok, and_assoc,
    exists_and_left, exists_eq_left', exists_const]
  constructor
  · rintro ⟨long, -, -, nonceFits, nonce, sameNonce, -, -, -, -, -, -, token, foundToken, -, -, -,
      -, length, sameLength, -, -, -, powersInside, -, -, powersLength, -, members, read, rfl⟩
    have lengthRead : length.val = addressesLength data := sameLength.symm
    rw [lengthRead] at powersInside powersLength read
    obtain ⟨reads, rfl⟩ := (decodeMembers_eq_ok short powersInside).mp read
    obtain rfl : addressAt data 2 = token :=
      Option.some.inj ((rewardToken_read long).2.symm.trans foundToken)
    have nonceRead : Fin.ofNat (2 ^ 64) (wordAt data 0).val = nonce := by
      rw [show (wordAt data 0).val = nonce.val from sameNonce, Fin.ofNat_val_eq_self]
    exact ⟨⟨long, nonceFits, by omega, powersLength, reads⟩, by rw [← nonceRead]; rfl⟩
  · rintro ⟨⟨long, nonceFits, powersInside, powersLength, reads⟩, rfl⟩
    have lengthFits : addressesLength data < 2 ^ 64 := by omega
    have lengthRead : addressesLength data = (Fin.ofNat (2 ^ 64) (addressesLength data)).val :=
      (Nat.mod_eq_of_lt lengthFits).symm
    obtain ⟨tokenLong, foundToken⟩ := rewardToken_read long
    refine ⟨long, by omega, by omega, nonceFits, Fin.ofNat (2 ^ 64) _,
      (Nat.mod_eq_of_lt nonceFits).symm, by omega, by omega, by omega, by omega, tokenLong, le_rfl,
      _, foundToken, long, by omega, long, lengthFits, Fin.ofNat (2 ^ 64) _, lengthRead, ?_⟩
    rw [← lengthRead]
    exact ⟨by omega, by omega, by omega, by omega, by omega, by omega, powersLength, trivial, _,
      (decodeMembers_eq_ok short (by omega)).mpr ⟨reads, rfl⟩, rfl⟩

/-- The position behind the length of the powers does not fit into 64 bits. -/
def ValsetOverflows (data : Bytes) : Prop :=
  192 ≤ data.length ∧ (wordAt data 0).val < 2 ^ 64 ∧ addressesLength data < 2 ^ 64 ∧
    2 ^ 64 ≤ (7 + addressesLength data) * 32

theorem calm_decodeValsetUpdated_iff (event : ByteSlice) :
    Calm (decodeValsetUpdated event) ↔ ¬ ValsetOverflows event.bytes := by
  obtain ⟨data, short⟩ := event
  have members : (6 + addressesLength data) * 32 + 32 ≤ data.length →
      Calm ((range (addressesLength data)).mapM
        (decodeMember data 192 ((6 + addressesLength data) * 32 + 32))) :=
    fun powers => calm_mapM fun _ inside => calm_decodeMember short powers (mem_range.mp inside)
  by_cases long : 192 ≤ data.length
  · obtain ⟨tokenLong, foundToken⟩ := rewardToken_read long
    simp only [decodeValsetUpdated, calm_mulUsize_bind, calm_addUsize_bind, calm_require_bind,
      calm_readUint_bind, calm_slice_bind, calm_fromOption_bind, calm_parse_bind, foundToken,
      Option.some.injEq, forall_eq', exists_prop]
    constructor
    · rintro calm ⟨-, nonceFits, lengthFits, overflow⟩
      obtain ⟨-, afterNonce⟩ := calm long
      obtain ⟨_, -, -, -, afterToken⟩ := afterNonce nonceFits
      obtain ⟨-, afterLength⟩ := afterToken long
      obtain ⟨-, -, -, positionFits, -⟩ := afterLength lengthFits
      have within : (6 + addressesLength data) * 32 + 32 < 2 ^ 64 := positionFits
      omega
    · intro within _
      refine ⟨by omega, fun nonceFits =>
        ⟨nonceFits, by omega, by omega, ⟨tokenLong, le_rfl⟩, fun _ => ⟨by omega, ?_⟩⟩⟩
      intro lengthFits
      have positionFits : (7 + (fromBeBytes ((data.take 192).drop 160)).val) * 32 < 2 ^ 64 :=
        Nat.lt_of_not_le fun overflow => within ⟨long, nonceFits, lengthFits, overflow⟩
      refine ⟨lengthFits, by omega, by omega, by omega, fun powers => ⟨by omega, fun _ _ => ?_⟩⟩
      exact calm_bind.mpr ⟨members powers, fun _ _ => calm_pure _⟩
  · rw [decodeValsetUpdated, calm_require_bind]
    exact iff_of_true (fun enough => absurd enough long) fun overflows => long overflows.1

/-! ## Deposits and deployed tokens -/

theorem calm_decodeSendToCosmos (event : ByteSlice) : Calm (decodeSendToCosmos event) := by
  obtain ⟨data, short⟩ := event
  simp only [decodeSendToCosmos, calm_require_bind, calm_readUint_bind, calm_parse_bind,
    calm_addUsize_bind, calm_slice_bind, exists_prop]
  intro long
  refine ⟨by omega, by omega, by omega, fun lengthFits =>
    ⟨by omega, by omega, fun inside => ⟨by omega, ?_⟩⟩⟩
  split_ifs <;> exact calm_pure _

variable {previousEnd : Nat} {overflow invalid large : String}

theorem calm_decodeText {data : Bytes} (short : data.length < 2 ^ 63)
    (inside : previousEnd ≤ data.length) :
    Calm (decodeText data previousEnd overflow invalid large) := by
  simp only [decodeText, calm_require_bind, calm_readUint_bind, calm_parse_bind, calm_addUsize_bind,
    calm_mulUsize_bind, calm_slice_bind, calm_pure, exists_prop, implies_true, and_true]
  exact ⟨by omega, by omega, fun wordInside =>
    ⟨by omega, fun lengthFits => ⟨by omega, by omega, fun _ => by omega⟩⟩⟩

theorem decodeText_inside {data text : Bytes} {textEnd : Nat}
    (ran : decodeText data previousEnd overflow invalid large = .ok (text, textEnd)) :
    textEnd ≤ data.length := by
  simp only [decodeText, bind_eq_ok, mulUsize_eq_ok, addUsize_eq_ok, require_eq_ok, readUint_eq_ok,
    slice_eq_ok, parse_eq_ok, pure_eq_ok, and_assoc, exists_and_left, exists_eq_left', exists_const,
    Prod.mk.injEq] at ran
  obtain ⟨-, -, -, -, -, -, _, -, -, inside, -, -, -, -, -, rfl⟩ := ran
  exact inside

/-- The denom ends behind the data. -/
def DenomOutside (data : Bytes) : Prop :=
  192 ≤ data.length ∧ (wordAt data 3).val < 2 ^ 8 ∧ (wordAt data 4).val < 2 ^ 64 ∧
    (wordAt data 5).val < 2 ^ 32 ∧ data.length < 192 + (wordAt data 5).val

theorem calm_decodeErc20Deployed_iff (event : ByteSlice) :
    Calm (decodeErc20Deployed event) ↔ ¬ DenomOutside event.bytes := by
  obtain ⟨data, short⟩ := event
  simp only [decodeErc20Deployed, calm_require_bind, calm_readUint_bind, calm_parse_bind,
    calm_addUsize_bind, calm_slice_bind, exists_prop]
  constructor
  · rintro calm ⟨long, decimalsFit, nonceFits, lengthFits, outside⟩
    obtain ⟨-, afterDecimals⟩ := calm long
    obtain ⟨_, -, afterNonce⟩ := afterDecimals decimalsFit
    obtain ⟨_, -, afterLength⟩ := afterNonce nonceFits
    obtain ⟨-, -, ⟨-, inside⟩, -⟩ := afterLength lengthFits
    exact absurd inside (Nat.not_le.mpr outside)
  · intro within long
    refine ⟨by omega, fun decimalsFit =>
      ⟨decimalsFit, by omega, fun nonceFits => ⟨nonceFits, by omega, ?_⟩⟩⟩
    intro lengthFits
    have inside : 192 + (fromBeBytes ((data.take 192).drop 160)).val ≤ data.length :=
      Nat.le_of_not_lt fun outside => within ⟨long, decimalsFit, nonceFits, lengthFits, outside⟩
    refine ⟨by omega, by omega, by omega, fun _ _ _ _ _ =>
      calm_bind.mpr ⟨calm_decodeText short inside, ?_⟩⟩
    rintro ⟨name, nameEnd⟩ ran
    refine calm_require_bind.mpr fun _ =>
      calm_bind.mpr ⟨calm_decodeText short (decodeText_inside ran), ?_⟩
    exact fun _ _ => calm_pure _

/-! ## The events of the contract -/

/-- The data of `ValsetUpdatedEvent` besides the indexed nonce. -/
def valsetUpdatedData (eventNonce : U64) (rewardAmount : U256) (rewardToken : EthAddress)
    (validators : List EthAddress) (powers : List U64) : Bytes :=
  encode [.number eventNonce.val, .number rewardAmount.val, .number rewardToken.val,
    addresses validators, .array (powers.map (fun power => (power.val : Int)))]

/-- The data of `SendToCosmosEvent` besides the indexed addresses. -/
def sendToCosmosData (destination : Bytes) (amount eventNonce : U256) : Bytes :=
  encode [.bytes destination, .number amount.val, .number eventNonce.val]

/-- The data of `ERC20DeployedEvent` besides the indexed address. -/
def erc20DeployedData (cosmosDenom name symbol : Bytes) (decimals : Fin (2 ^ 8))
    (eventNonce : U64) : Bytes :=
  encode [.bytes cosmosDenom, .bytes name, .bytes symbol, .number decimals.val,
    .number eventNonce.val]

section

variable {numbers : List Int} {rest : Bytes} {index : Nat}

theorem wordAt_words {number : Nat} (is : numbers[index]? = some (number : Int))
    (fits : number < 2 ^ 256) : (wordAt (numbers.flatMap word ++ rest) index).val = number := by
  obtain ⟨inside, found⟩ := List.getElem?_eq_some_iff.mp is
  rw [wordAt, drop_take_words inside, found, fromBeBytes, uint_word fits]
  exact Nat.mod_eq_of_lt fits

theorem addressAt_words {address : EthAddress} (is : numbers[index]? = some (address.val : Int)) :
    addressAt (numbers.flatMap word ++ rest) index = address := by
  obtain ⟨inside, found⟩ := List.getElem?_eq_some_iff.mp is
  rw [addressAt, ← drop_drop, drop_take_words inside, found, uint_drop_word address.isLt,
    Fin.ofNat_val_eq_self]

end

/-- The words of a validator set. The offsets are not read. -/
def valsetWords (firstOffset secondOffset : Int) (eventNonce : U64) (rewardAmount : U256)
    (rewardToken : EthAddress) (validators : List EthAddress) (powers : List U64) : List Int :=
  [(eventNonce.val : Int), rewardAmount.val, rewardToken.val, firstOffset, secondOffset,
    validators.length] ++ (validators.map (fun validator => (validator.val : Int)) ++
      ((powers.length : Int) :: powers.map (fun power => (power.val : Int))))

theorem valsetUpdatedData_eq (eventNonce : U64) (rewardAmount : U256) (rewardToken : EthAddress)
    (validators : List EthAddress) (powers : List U64) :
    ∃ firstOffset secondOffset, valsetUpdatedData eventNonce rewardAmount rewardToken
      validators powers =
      (valsetWords firstOffset secondOffset eventNonce rewardAmount rewardToken validators
        powers).flatMap word ++ [] := by
  refine ⟨((32 * 5 : Nat) : Int), ((32 * 5 + (addresses validators).data.length : Nat) : Int), ?_⟩
  simp [valsetUpdatedData, valsetWords, encode, heads, Argument.head, Argument.data, addresses]

section

variable {firstOffset secondOffset : Int} {eventNonce : U64} {rewardAmount : U256}
  {rewardToken : EthAddress} {validators : List EthAddress} {powers : List U64} {index : Nat}

theorem valsetWords_validator (inside : index < validators.length) :
    (valsetWords firstOffset secondOffset eventNonce rewardAmount rewardToken validators
      powers)[6 + index]? = some (validators[index].val : Int) := by
  rw [valsetWords, getElem?_append_right (by simp)]
  rw [getElem?_append_left (by simpa using inside)]
  simp [inside]

theorem valsetWords_powersLength :
    (valsetWords firstOffset secondOffset eventNonce rewardAmount rewardToken validators
      powers)[6 + validators.length]? = some (powers.length : Int) := by
  rw [valsetWords, getElem?_append_right (by simp), getElem?_append_right (by simp)]
  simp

theorem valsetWords_power (inside : index < powers.length) :
    (valsetWords firstOffset secondOffset eventNonce rewardAmount rewardToken validators
      powers)[7 + validators.length + index]? = some (powers[index].val : Int) := by
  have position : 7 + validators.length + index = 6 + (validators.length + (index + 1)) := by omega
  rw [valsetWords, position, getElem?_append_right (by simp), getElem?_append_right (by simp)]
  simp [inside]

theorem decodeValsetUpdated_encoded (lengths : validators.length = powers.length)
    (encoded : event.bytes = valsetUpdatedData eventNonce rewardAmount rewardToken
      validators powers) :
    decodeValsetUpdated event = .ok ⟨eventNonce, rewardAmount, if rewardToken = zeroAddress then
      none else some rewardToken, zipWith ValsetMember.mk powers validators⟩ := by
  obtain ⟨firstOffset, secondOffset, words⟩ :=
    valsetUpdatedData_eq eventNonce rewardAmount rewardToken validators powers
  have bytes := encoded.trans words
  have size : event.bytes.length = (7 + 2 * validators.length) * 32 := by
    rw [bytes, append_nil, length_flatMap_word, valsetWords]
    simp only [length_append, length_cons, length_nil, length_map]
    omega
  have short := event.short
  have smallLength : validators.length < 2 ^ 64 := by omega
  have small : ∀ number : U64, number.val < 2 ^ 256 := fun number => number.isLt.trans (by decide)
  have nonceRead : (wordAt event.bytes 0).val = eventNonce.val := by
    rw [bytes]
    exact wordAt_words rfl (small eventNonce)
  have amountRead : wordAt event.bytes 1 = rewardAmount := by
    rw [bytes]
    exact Fin.ext (wordAt_words rfl rewardAmount.isLt)
  have tokenRead : addressAt event.bytes 2 = rewardToken := by
    rw [bytes]
    exact addressAt_words rfl
  have lengthRead : addressesLength event.bytes = validators.length := by
    rw [addressesLength, bytes]
    exact wordAt_words rfl (smallLength.trans (by decide))
  have powersLengthRead : (wordAt event.bytes (6 + validators.length)).val = powers.length := by
    rw [bytes]
    exact wordAt_words valsetWords_powersLength ((lengths ▸ smallLength).trans (by decide))
  have powerRead : ∀ index (inside : index < powers.length),
      (wordAt event.bytes (7 + validators.length + index)).val = powers[index].val := by
    intro index inside
    rw [bytes]
    exact wordAt_words (valsetWords_power inside) (small _)
  have validatorRead : ∀ index (inside : index < validators.length),
      addressAt event.bytes (6 + index) = validators[index] := by
    intro index inside
    rw [bytes]
    exact addressAt_words (valsetWords_validator inside)
  rw [decodeValsetUpdated_eq_ok]
  refine ⟨⟨by omega, nonceRead ▸ eventNonce.isLt, by rw [lengthRead]; omega, ?_, ?_⟩, ?_⟩
  · rw [lengthRead, powersLengthRead, ← lengths]
    exact smallLength
  · intro index inside
    rw [lengthRead] at inside
    rw [MemberReads, lengthRead, powerRead index (lengths ▸ inside)]
    exact ⟨by omega, Fin.isLt _⟩
  · have members : (range (addressesLength event.bytes)).map (memberAt event.bytes) =
        zipWith ValsetMember.mk powers validators := by
      rw [lengthRead]
      refine ext_getElem (by simp [lengths]) fun index inside _ => ?_
      have insideValidators : index < validators.length := by simpa using inside
      rw [getElem_map, getElem_range, getElem_zipWith, memberAt, lengthRead,
        powerRead index (lengths ▸ insideValidators), validatorRead index insideValidators,
        Fin.ofNat_val_eq_self]
    rw [valsetAt, nonceRead, Fin.ofNat_val_eq_self, amountRead, tokenRead, members]

end

theorem decodeSendToCosmos_encoded {destination : Bytes} {amount eventNonce : U256}
    (fits : destination.length < 2 ^ 32)
    (encoded : event.bytes = sendToCosmosData destination amount eventNonce) :
    decodeSendToCosmos event =
      .ok ⟨if isUtf8 destination = true ∧ (trim destination).length ≤ oneMegabyte then
        trim destination else [], amount, eventNonce⟩ := by
  have bytes : event.bytes =
      [(96 : Int), amount.val, eventNonce.val, destination.length].flatMap word ++
        padded destination := by
    simp [encoded, sendToCosmosData, encode, heads, Argument.head, Argument.data]
  have inside : 128 + destination.length ≤ event.bytes.length := by
    rw [bytes, length_append, length_flatMap_word, padded, length_append]
    simp only [length_cons, length_nil]
    omega
  have amountRead : wordAt event.bytes 1 = amount := by
    rw [bytes]
    exact Fin.ext (wordAt_words rfl amount.isLt)
  have nonceRead : wordAt event.bytes 2 = eventNonce := by
    rw [bytes]
    exact Fin.ext (wordAt_words rfl eventNonce.isLt)
  have lengthRead : (wordAt event.bytes 3).val = destination.length := by
    rw [bytes]
    exact wordAt_words rfl (fits.trans (by decide))
  have textRead : (event.bytes.take (128 + destination.length)).drop 128 = destination :=
    drop_take_of_split bytes (by rw [length_flatMap_word]; rfl) rfl
  have parsed : (Fin.ofNat (2 ^ 64) destination.length).val = destination.length :=
    Nat.mod_eq_of_lt (fits.trans (by decide))
  simp only [decodeSendToCosmos, bind_eq_ok, addUsize_eq_ok, require_eq_ok, readUint_eq_ok,
    slice_eq_ok, parse_eq_ok, and_assoc, exists_and_left, exists_eq_left', exists_const]
  refine ⟨by omega, by omega, by omega, by omega, by omega, by omega, by omega, lengthRead ▸ fits,
    Fin.ofNat (2 ^ 64) destination.length, lengthRead.trans parsed.symm, ?_⟩
  rw [parsed, textRead]
  refine ⟨by omega, inside, by omega, inside, ?_⟩
  rw [show fromBeBytes ((event.bytes.take 64).drop 32) = amount from amountRead,
    show fromBeBytes ((event.bytes.take 96).drop 64) = eventNonce from nonceRead]
  cases utf8 : isUtf8 destination with
  | false => rfl
  | true =>
    rw [if_neg Bool.noConfusion]
    by_cases small : (trim destination).length ≤ oneMegabyte
    · rw [if_neg (Nat.not_lt.mpr small), if_pos ⟨rfl, small⟩]
      rfl
    · rw [if_pos (Nat.lt_of_not_le small), if_neg fun both => small both.2]
      rfl

theorem erc20DeployedData_eq (cosmosDenom name symbol : Bytes) (decimals : Fin (2 ^ 8))
    (eventNonce : U64) :
    ∃ nameOffset symbolOffset, erc20DeployedData cosmosDenom name symbol decimals eventNonce =
      [(160 : Int), nameOffset, symbolOffset, decimals.val, eventNonce.val,
        cosmosDenom.length].flatMap word ++
        (padded cosmosDenom ++
          (word name.length ++ (padded name ++ (word symbol.length ++ padded symbol)))) := by
  refine ⟨((160 + (Argument.bytes cosmosDenom).data.length : Nat) : Int),
    ((160 + (Argument.bytes cosmosDenom).data.length +
      (Argument.bytes name).data.length : Nat) : Int), ?_⟩
  simp [erc20DeployedData, encode, heads, Argument.head, Argument.data]

theorem decodeText_encoded {data front text rest : Bytes}
    (short : data.length < 2 ^ 63)
    (split : data = front ++ (word text.length ++ (padded text ++ rest)))
    (starts : front.length = (previousEnd + 31) / 32 * 32) (fits : text.length < 2 ^ 32)
    (utf8 : isUtf8 text = true) (small : text.length ≤ oneMegabyte) :
    decodeText data previousEnd overflow invalid large =
      .ok (text, front.length + 32 + text.length) := by
  have inside : front.length + 32 + text.length ≤ data.length := by
    simp only [split, padded, length_append, length_word]
    omega
  have lengthRead : (fromBeBytes ((data.take (front.length + 32)).drop front.length)).val =
      text.length := by
    have small : text.length < 2 ^ 256 := fits.trans (by decide)
    rw [drop_take_of_split split rfl (by rw [length_word]), fromBeBytes, uint_word small]
    exact Nat.mod_eq_of_lt small
  have textRead : (data.take (front.length + 32 + text.length)).drop (front.length + 32) = text := by
    have apart : data = (front ++ word text.length) ++
        (text ++ (List.replicate ((32 - text.length % 32) % 32) 0 ++ rest)) := by
      simp only [split, padded, append_assoc]
    exact drop_take_of_split apart (by rw [length_append, length_word]) rfl
  have parsed : (Fin.ofNat (2 ^ 64) text.length).val = text.length :=
    Nat.mod_eq_of_lt (fits.trans (by decide))
  simp only [decodeText, bind_eq_ok, mulUsize_eq_ok, addUsize_eq_ok, require_eq_ok, readUint_eq_ok,
    slice_eq_ok, parse_eq_ok, pure_eq_ok, and_assoc, exists_and_left, exists_eq_left',
    exists_const, ← starts]
  refine ⟨by omega, by omega, by omega, by omega, by omega, lengthRead ▸ fits,
    Fin.ofNat (2 ^ 64) text.length, lengthRead.trans parsed.symm, ?_⟩
  rw [parsed, textRead]
  exact ⟨by omega, inside, by omega, inside, utf8, small, rfl⟩

theorem decodeErc20Deployed_encoded {cosmosDenom name symbol : Bytes} {decimals : Fin (2 ^ 8)}
    {eventNonce : U64} (nonempty : cosmosDenom ≠ []) (single : ∀ byte ∈ cosmosDenom, byte < 0x80)
    (short : cosmosDenom.length ≤ maxCosmosDenomLen) (nameUtf8 : isUtf8 name = true)
    (nameSmall : name.length ≤ oneMegabyte) (symbolUtf8 : isUtf8 symbol = true)
    (symbolSmall : symbol.length ≤ oneMegabyte)
    (encoded : event.bytes = erc20DeployedData cosmosDenom name symbol decimals eventNonce) :
    decodeErc20Deployed event = .ok ⟨cosmosDenom, name, symbol, decimals, eventNonce⟩ := by
  obtain ⟨nameOffset, symbolOffset, data⟩ :=
    erc20DeployedData_eq cosmosDenom name symbol decimals eventNonce
  have bytes := encoded.trans data
  have limit : oneMegabyte < 2 ^ 32 := by decide
  have denomLimit : maxCosmosDenomLen < oneMegabyte := by decide
  have six : ([(160 : Int), nameOffset, symbolOffset, decimals.val, eventNonce.val,
      cosmosDenom.length].flatMap word).length = 6 * 32 := by
    rw [length_flatMap_word]
    rfl
  have inside : 192 + cosmosDenom.length ≤ event.bytes.length := by
    rw [bytes, length_append, length_append, six, padded, length_append]
    omega
  have decimalsRead : (wordAt event.bytes 3).val = decimals.val := by
    rw [bytes]
    exact wordAt_words rfl (decimals.isLt.trans (by decide))
  have nonceRead : (wordAt event.bytes 4).val = eventNonce.val := by
    rw [bytes]
    exact wordAt_words rfl (eventNonce.isLt.trans (by decide))
  have lengthRead : (wordAt event.bytes 5).val = cosmosDenom.length := by
    rw [bytes]
    exact wordAt_words rfl (by omega)
  generalize [(160 : Int), nameOffset, symbolOffset, decimals.val, eventNonce.val,
    cosmosDenom.length].flatMap word = words at bytes six
  have denomRead : (event.bytes.take (192 + cosmosDenom.length)).drop 192 = cosmosDenom := by
    rw [padded, append_assoc] at bytes
    exact drop_take_of_split bytes six rfl
  have nameStarts := @length_append_padded words cosmosDenom 6 six
  have nameSplit : event.bytes = (words ++ padded cosmosDenom) ++
      (word name.length ++ (padded name ++ (word symbol.length ++ padded symbol))) := by
    rw [bytes, append_assoc]
  generalize words ++ padded cosmosDenom = front at nameStarts nameSplit
  have symbolStarts :=
    @length_append_padded (front ++ word name.length) name ((192 + cosmosDenom.length + 31) / 32 + 1)
    (by rw [length_append, length_word, nameStarts, six]; omega)
  have symbolSplit : event.bytes = ((front ++ word name.length) ++ padded name) ++
      (word symbol.length ++ (padded symbol ++ [])) := by
    simp only [nameSplit, append_assoc, append_nil]
  have nameWord : (front ++ word name.length).length = front.length + 32 := by
    rw [length_append, length_word]
  rw [nameWord] at symbolStarts
  rw [six] at nameStarts
  have parsed : (Fin.ofNat (2 ^ 64) cosmosDenom.length).val = cosmosDenom.length :=
    Nat.mod_eq_of_lt (by omega)
  have denomFits : cosmosDenom.length < 2 ^ 32 := by omega
  simp only [decodeErc20Deployed, bind_eq_ok, addUsize_eq_ok, require_eq_ok, readUint_eq_ok,
    slice_eq_ok, parse_eq_ok, pure_eq_ok, and_assoc, exists_and_left, exists_eq_left', exists_const]
  refine ⟨by omega, by omega, by omega, decimalsRead ▸ decimals.isLt, decimals, decimalsRead,
    by omega, by omega, nonceRead ▸ eventNonce.isLt, eventNonce, nonceRead, by omega, by omega,
    lengthRead ▸ denomFits, Fin.ofNat (2 ^ 64) cosmosDenom.length, lengthRead.trans parsed.symm, ?_⟩
  rw [parsed, denomRead]
  refine ⟨by omega, by omega, inside, isUtf8_of_ascii single, nonempty, short, single, by omega,
    _, decodeText_encoded event.short nameSplit nameStarts (by omega) nameUtf8 nameSmall, nameSmall,
    _, decodeText_encoded event.short symbolSplit symbolStarts (by omega) symbolUtf8 symbolSmall, rfl⟩

/-- What the contract encodes is what the decoders return. -/
theorem decoders_invert_encoding :
    (∀ (eventNonce : U64) (rewardAmount : U256) (rewardToken : EthAddress)
      (validators : List EthAddress)
      (powers : List U64) (event : ByteSlice), validators.length = powers.length →
      event.bytes = valsetUpdatedData eventNonce rewardAmount rewardToken validators powers →
      decodeValsetUpdated event = .ok ⟨eventNonce, rewardAmount,
        if rewardToken = zeroAddress then none else some rewardToken,
          zipWith ValsetMember.mk powers validators⟩) ∧
    (∀ (destination : Bytes) (amount eventNonce : U256) (event : ByteSlice),
      destination.length < 2 ^ 32 → event.bytes = sendToCosmosData destination amount eventNonce →
      decodeSendToCosmos event =
        .ok ⟨if isUtf8 destination = true ∧ (trim destination).length ≤ oneMegabyte then
          trim destination else [], amount, eventNonce⟩) ∧
    (∀ (cosmosDenom name symbol : Bytes) (decimals : Fin (2 ^ 8)) (eventNonce : U64)
      (event : ByteSlice), cosmosDenom ≠ [] → (∀ byte ∈ cosmosDenom, byte < 0x80) →
      cosmosDenom.length ≤ maxCosmosDenomLen →
      isUtf8 name = true → name.length ≤ oneMegabyte → isUtf8 symbol = true →
      symbol.length ≤ oneMegabyte →
      event.bytes = erc20DeployedData cosmosDenom name symbol decimals eventNonce →
      decodeErc20Deployed event = .ok ⟨cosmosDenom, name, symbol, decimals, eventNonce⟩) := by
  refine ⟨?_, ?_, ?_⟩
  · exact fun _ _ _ _ _ _ lengths encoded => decodeValsetUpdated_encoded lengths encoded
  · exact fun _ _ _ _ fits encoded => decodeSendToCosmos_encoded fits encoded
  · exact fun _ _ _ _ _ _ nonempty single short nameUtf8 nameSmall symbolUtf8 symbolSmall encoded =>
      decodeErc20Deployed_encoded nonempty single short nameUtf8 nameSmall symbolUtf8
        symbolSmall encoded

/-- A set of two members, a destination with blanks around it, and a token with texts of 9, 33 and 3
bytes. -/
theorem three_events_decoded :
    decodeValsetUpdated ⟨valsetUpdatedData 7 0 0 [11, 12] [3, 2], by decide +kernel⟩ =
        .ok ⟨7, 0, none, [⟨3, 11⟩, ⟨2, 12⟩]⟩ ∧
      decodeSendToCosmos ⟨sendToCosmosData (ascii " gravity1 ") 5 8, by decide +kernel⟩ =
        .ok ⟨ascii "gravity1", 5, 8⟩ ∧
      decodeErc20Deployed
          ⟨erc20DeployedData (ascii "ugraviton") (ascii "Graviton, the token of the bridge")
            (ascii "GRV") 6 9, by decide +kernel⟩ =
        .ok ⟨ascii "ugraviton", ascii "Graviton, the token of the bridge", ascii "GRV", 6, 9⟩ := by
  obtain ⟨valset, deposit, token⟩ := decoders_invert_encoding
  have noToken : (if (0 : EthAddress) = zeroAddress then none else some (0 : EthAddress)) = none :=
    if_pos rfl
  have trimmed : (if isUtf8 (ascii " gravity1 ") = true ∧
      (trim (ascii " gravity1 ")).length ≤ oneMegabyte
      then trim (ascii " gravity1 ") else []) = ascii "gravity1" := by decide +kernel
  have members := valset 7 0 0 [11, 12] [3, 2] ⟨_, by decide +kernel⟩ rfl rfl
  have destination := deposit (ascii " gravity1 ") 5 8 ⟨_, by decide +kernel⟩ (by decide +kernel) rfl
  rw [noToken] at members
  rw [trimmed] at destination
  exact ⟨members, destination, token (ascii "ugraviton") (ascii "Graviton, the token of the bridge")
    (ascii "GRV") 6 9
    ⟨_, by decide +kernel⟩ (by decide +kernel) (by decide +kernel) (by decide +kernel)
      (by decide +kernel)
    (by decide +kernel) (by decide +kernel) (by decide +kernel) rfl⟩

/-! ## Arbitrary bytes -/

/-- The length of the powers, where the decoder reads it. -/
def powersLength (data : Bytes) : Nat := (wordAt data (6 + addressesLength data)).val

/-- No decoder panics, and a decoded validator set had arrays of one length. -/
structure Robust (event : ByteSlice) : Prop where
  valset : Calm (decodeValsetUpdated event)
  deposit : Calm (decodeSendToCosmos event)
  token : Calm (decodeErc20Deployed event)
  lengths : ∀ result, decodeValsetUpdated event = .ok result →
    addressesLength event.bytes = powersLength event.bytes

theorem decoders_robust_iff (event : ByteSlice) :
    Robust event ↔ ¬ ValsetOverflows event.bytes ∧ ¬ DenomOutside event.bytes ∧
      (ValsetReads event.bytes → addressesLength event.bytes = powersLength event.bytes) := by
  constructor
  · rintro ⟨valset, -, token, lengths⟩
    refine ⟨(calm_decodeValsetUpdated_iff event).mp valset,
      (calm_decodeErc20Deployed_iff event).mp token, ?_⟩
    exact fun reads => lengths _ (decodeValsetUpdated_eq_ok.mpr ⟨reads, rfl⟩)
  · rintro ⟨within, inside, lengths⟩
    refine ⟨(calm_decodeValsetUpdated_iff event).mpr within, calm_decodeSendToCosmos event,
      (calm_decodeErc20Deployed_iff event).mpr inside, ?_⟩
    exact fun _ decoded => lengths (decodeValsetUpdated_eq_ok.mp decoded).1

/-- Six words, the last a length of `2 ^ 59` addresses or of one byte of a denom, and seven words with
no address but a length of one power. -/
theorem three_events_not_robust :
    decodeValsetUpdated ⟨[0, 0, 0, 0, 0, 2 ^ 59].flatMap word, by decide +kernel⟩ =
        .error (.panic "attempt to multiply with overflow") ∧
      decodeErc20Deployed ⟨[0, 0, 0, 0, 0, 1].flatMap word, by decide +kernel⟩ =
        .error (.panic "range end index out of range for slice") ∧
      decodeValsetUpdated ⟨[0, 0, 0, 0, 0, 0, 1].flatMap word, by decide +kernel⟩ =
        .ok ⟨0, 0, none, []⟩ ∧
      addressesLength ([0, 0, 0, 0, 0, 0, 1].flatMap word) = 0 ∧
        powersLength ([0, 0, 0, 0, 0, 0, 1].flatMap word) = 1 := by
  decide +kernel

end GravityBridge.Orchestrator
