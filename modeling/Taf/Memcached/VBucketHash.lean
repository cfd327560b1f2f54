import Taf.Lib.Crc
import Taf.Lib.Dict
import Taf.Memcached.Requests

/-! # The vBucket of a key

`MemcachedClient._set_vbucket`, `VBucketAwareMemcached._get_vBucket_id`, `Cbstats` and the table of
`lib/crc32.py` place a key in a vBucket.  `zlib.crc32` is the bit by bit code of
`Taf.Memcached.crc32` and comes with a sign or without one.  The first of the four encodes the key
before that, which Python 2 does for ASCII only and Python 3 for no byte string at all. -/

namespace Taf.Memcached

open Taf.Lib

/-! ## `zlib.crc32` -/

inductive Crc32Form where
  | signed
  | unsigned
  deriving DecidableEq

def Crc32Form.read : Crc32Form → Nat → Int
  | .signed, crc => (BitVec.ofNat 32 crc).toInt
  | .unsigned, crc => crc

/-- `zlib.crc32(key)`.  Python 2 encodes a unicode string as ASCII. -/
def zlibCrc32 (python : Python) (form : Crc32Form) : PyText → Except PyError Int
  | .bytes content => .ok (form.read (crc32 content))
  | .unicode content =>
    match python with
    | .two =>
      if AsciiChars content then .ok (form.read (crc32 (utf8 content)))
      else .error .unicodeEncodeError
    | .three => .error .typeError

/-! ## The table of `lib/crc32.py` -/

set_option maxRecDepth 2048 in
def crc32tab : Vector Nat 256 := #v[
  0x00000000, 0x77073096, 0xee0e612c, 0x990951ba,
  0x076dc419, 0x706af48f, 0xe963a535, 0x9e6495a3,
  0x0edb8832, 0x79dcb8a4, 0xe0d5e91e, 0x97d2d988,
  0x09b64c2b, 0x7eb17cbd, 0xe7b82d07, 0x90bf1d91,
  0x1db71064, 0x6ab020f2, 0xf3b97148, 0x84be41de,
  0x1adad47d, 0x6ddde4eb, 0xf4d4b551, 0x83d385c7,
  0x136c9856, 0x646ba8c0, 0xfd62f97a, 0x8a65c9ec,
  0x14015c4f, 0x63066cd9, 0xfa0f3d63, 0x8d080df5,
  0x3b6e20c8, 0x4c69105e, 0xd56041e4, 0xa2677172,
  0x3c03e4d1, 0x4b04d447, 0xd20d85fd, 0xa50ab56b,
  0x35b5a8fa, 0x42b2986c, 0xdbbbc9d6, 0xacbcf940,
  0x32d86ce3, 0x45df5c75, 0xdcd60dcf, 0xabd13d59,
  0x26d930ac, 0x51de003a, 0xc8d75180, 0xbfd06116,
  0x21b4f4b5, 0x56b3c423, 0xcfba9599, 0xb8bda50f,
  0x2802b89e, 0x5f058808, 0xc60cd9b2, 0xb10be924,
  0x2f6f7c87, 0x58684c11, 0xc1611dab, 0xb6662d3d,
  0x76dc4190, 0x01db7106, 0x98d220bc, 0xefd5102a,
  0x71b18589, 0x06b6b51f, 0x9fbfe4a5, 0xe8b8d433,
  0x7807c9a2, 0x0f00f934, 0x9609a88e, 0xe10e9818,
  0x7f6a0dbb, 0x086d3d2d, 0x91646c97, 0xe6635c01,
  0x6b6b51f4, 0x1c6c6162, 0x856530d8, 0xf262004e,
  0x6c0695ed, 0x1b01a57b, 0x8208f4c1, 0xf50fc457,
  0x65b0d9c6, 0x12b7e950, 0x8bbeb8ea, 0xfcb9887c,
  0x62dd1ddf, 0x15da2d49, 0x8cd37cf3, 0xfbd44c65,
  0x4db26158, 0x3ab551ce, 0xa3bc0074, 0xd4bb30e2,
  0x4adfa541, 0x3dd895d7, 0xa4d1c46d, 0xd3d6f4fb,
  0x4369e96a, 0x346ed9fc, 0xad678846, 0xda60b8d0,
  0x44042d73, 0x33031de5, 0xaa0a4c5f, 0xdd0d7cc9,
  0x5005713c, 0x270241aa, 0xbe0b1010, 0xc90c2086,
  0x5768b525, 0x206f85b3, 0xb966d409, 0xce61e49f,
  0x5edef90e, 0x29d9c998, 0xb0d09822, 0xc7d7a8b4,
  0x59b33d17, 0x2eb40d81, 0xb7bd5c3b, 0xc0ba6cad,
  0xedb88320, 0x9abfb3b6, 0x03b6e20c, 0x74b1d29a,
  0xead54739, 0x9dd277af, 0x04db2615, 0x73dc1683,
  0xe3630b12, 0x94643b84, 0x0d6d6a3e, 0x7a6a5aa8,
  0xe40ecf0b, 0x9309ff9d, 0x0a00ae27, 0x7d079eb1,
  0xf00f9344, 0x8708a3d2, 0x1e01f268, 0x6906c2fe,
  0xf762575d, 0x806567cb, 0x196c3671, 0x6e6b06e7,
  0xfed41b76, 0x89d32be0, 0x10da7a5a, 0x67dd4acc,
  0xf9b9df6f, 0x8ebeeff9, 0x17b7be43, 0x60b08ed5,
  0xd6d6a3e8, 0xa1d1937e, 0x38d8c2c4, 0x4fdff252,
  0xd1bb67f1, 0xa6bc5767, 0x3fb506dd, 0x48b2364b,
  0xd80d2bda, 0xaf0a1b4c, 0x36034af6, 0x41047a60,
  0xdf60efc3, 0xa867df55, 0x316e8eef, 0x4669be79,
  0xcb61b38c, 0xbc66831a, 0x256fd2a0, 0x5268e236,
  0xcc0c7795, 0xbb0b4703, 0x220216b9, 0x5505262f,
  0xc5ba3bbe, 0xb2bd0b28, 0x2bb45a92, 0x5cb36a04,
  0xc2d7ffa7, 0xb5d0cf31, 0x2cd99e8b, 0x5bdeae1d,
  0x9b64c2b0, 0xec63f226, 0x756aa39c, 0x026d930a,
  0x9c0906a9, 0xeb0e363f, 0x72076785, 0x05005713,
  0x95bf4a82, 0xe2b87a14, 0x7bb12bae, 0x0cb61b38,
  0x92d28e9b, 0xe5d5be0d, 0x7cdcefb7, 0x0bdbdf21,
  0x86d3d2d4, 0xf1d4e242, 0x68ddb3f8, 0x1fda836e,
  0x81be16cd, 0xf6b9265b, 0x6fb077e1, 0x18b74777,
  0x88085ae6, 0xff0f6a70, 0x66063bca, 0x11010b5c,
  0x8f659eff, 0xf862ae69, 0x616bffd3, 0x166ccf45,
  0xa00ae278, 0xd70dd2ee, 0x4e048354, 0x3903b3c2,
  0xa7672661, 0xd06016f7, 0x4969474d, 0x3e6e77db,
  0xaed16a4a, 0xd9d65adc, 0x40df0b66, 0x37d83bf0,
  0xa9bcae53, 0xdebb9ec5, 0x47b2cf7f, 0x30b5ffe9,
  0xbdbdf21c, 0xcabac28a, 0x53b39330, 0x24b4a3a6,
  0xbad03605, 0xcdd70693, 0x54de5729, 0x23d967bf,
  0xb3667a2e, 0xc4614ab8, 0x5d681b02, 0x2a6f2b94,
  0xb40bbe37, 0xc30c8ea1, 0x5a05df1b, 0x2d02ef8d]

/-- The table's index is within its bounds. -/
theorem and_255_lt (word : Nat) : word &&& 0xff < 256 :=
  Nat.lt_succ_of_le Nat.and_le_right

def crc32Step (crc ch : Nat) : Nat :=
  (crc >>> 8) ^^^ crc32tab.get ⟨(crc ^^^ ch) &&& 0xff, and_255_lt _⟩

/-! ### The table is the code -/

theorem crcByte_eq_reflectedSteps (crc : BitVec 32) (byte : UInt8) :
    crcByte crc byte = reflectedSteps 0xEDB88320 8 (crc ^^^ BitVec.ofNat 32 byte.toNat) := by
  -- `crc & 1` asks for the lowest bit and nothing else.
  have lowBit : ∀ word : BitVec 32, word &&& 1 = 1 ↔ word.getLsbD 0 = true := by
    intro word
    constructor
    · intro low
      have bit := congrArg (fun bits : BitVec 32 => bits.getLsbD 0) low
      simpa using bit
    · intro low
      apply BitVec.eq_of_getLsbD_eq
      intro i inside
      cases i with
      | zero => simp [low]
      | succ i => simp [BitVec.getLsbD_one]
  have step : (fun (word : BitVec 32) (_ : Nat) =>
      if word &&& 1 = 1 then (word >>> 1) ^^^ 0xEDB88320 else word >>> 1) =
        fun word _ => reflectedStep 0xEDB88320 word := by
    funext word _
    simp only [lowBit, reflectedStep]
  rw [crcByte, step, List.foldl_const, List.length_range]
  rfl

theorem crc32tab_toList : crc32tab.toList = (List.range 256).map fun index =>
    (reflectedSteps 0xEDB88320 8 (BitVec.ofNat 32 index)).toNat := by
  decide +kernel

/-- Every entry is what eight steps make of its index. -/
theorem crc32tab_get (index : Fin 256) :
    crc32tab.get index = (reflectedSteps 0xEDB88320 8 (BitVec.ofNat 32 index)).toNat := by
  have entry : crc32tab.toList[index.val]? = some (crc32tab.get index) := by
    rw [Vector.getElem?_toList]
    exact Vector.getElem?_eq_getElem index.isLt
  rw [crc32tab_toList, List.getElem?_map, List.getElem?_range index.isLt] at entry
  exact (Option.some.inj entry).symm

/-- A word of the state and the same word in Python. -/
theorem toNat_crcByte (crc : BitVec 32) (byte : UInt8) :
    (crcByte crc byte).toNat = crc32Step crc.toNat byte.toNat := by
  have byteSmall : byte.toNat < 256 := byte.toNat_lt
  have mask : (crc.toNat ^^^ byte.toNat) &&& 0xff = (crc.toNat ^^^ byte.toNat) % 2 ^ 8 :=
    Nat.and_two_pow_sub_one_eq_mod _ 8
  have word : (crc ^^^ BitVec.ofNat 32 byte.toNat).toNat = crc.toNat ^^^ byte.toNat := by
    rw [BitVec.toNat_xor, BitVec.toNat_ofNat, Nat.mod_eq_of_lt (by omega)]
  -- The byte lies below the bits that the shift leaves, so that it shows in the index alone.
  have shifted : (crc.toNat ^^^ byte.toNat) >>> 8 = crc.toNat >>> 8 := by
    rw [Nat.shiftRight_xor_distrib, Nat.shiftRight_eq_div_pow byte.toNat,
      Nat.div_eq_of_lt byteSmall, Nat.xor_zero]
  rw [crcByte_eq_reflectedSteps, reflectedSteps_eq_table, BitVec.toNat_xor,
    BitVec.toNat_ushiftRight, word, shifted, crc32Step, crc32tab_get, lowBits, word]
  simp only [mask]

theorem toNat_foldl_crcByte (content : Bytes) (crc : BitVec 32) :
    (content.foldl crcByte crc).toNat = (content.map UInt8.toNat).foldl crc32Step crc.toNat := by
  induction content generalizing crc with
  | nil => rfl
  | cons byte content ih => rw [List.foldl_cons, ih, toNat_crcByte, List.map_cons, List.foldl_cons]

/-! ### The hash -/

/-- `ord` of everything that a loop over `key` yields; a byte string of Python 3 yields numbers. -/
def ords : Python → PyText → Except PyError (List Nat)
  | .two, .bytes content => .ok (content.map UInt8.toNat)
  | .three, .bytes content => if content = [] then .ok [] else .error .typeError
  | _, .unicode content => .ok (content.map Char.toNat)

def crc32Hash (python : Python) (key : PyText) : Except PyError Int :=
  (ords python key).map fun chars =>
    Int.land (~~~ ((chars.foldl crc32Step (2 ^ 32 - 1) : Nat) : Int) >>> (16 : Nat)) 0x7fff

/-- The complement of Python and the complement of 32 bits differ in the sign alone. -/
theorem complement_foldl_crc32Step (content : Bytes) :
    (~~~ (((content.map UInt8.toNat).foldl crc32Step (2 ^ 32 - 1) : Nat) : Int)) % 2 ^ 32 =
      (crc32 content : Int) % 2 ^ 32 := by
  have start : (0xFFFFFFFF : BitVec 32).toNat = 2 ^ 32 - 1 := rfl
  have last := toNat_foldl_crcByte content 0xFFFFFFFF
  have complement : crc32 content = 2 ^ 32 - 1 - (content.foldl crcByte 0xFFFFFFFF).toNat :=
    BitVec.toNat_not
  have small := (content.foldl crcByte 0xFFFFFFFF).isLt
  rw [← start, ← last, complement, complement_natCast]
  omega

/-! ## The vBucket -/

variable (python : Python) (form : Crc32Form)

/-- What `_set_vbucket` writes to `vbucketId`. -/
def setVbucketId (client : Client) (key : PyText) (vbucket : Int) : Except PyError Int :=
  if vbucket = 0 ∨ vbucket < 0 then do
    let encoded ← key.encode python
    let crc ← zlibCrc32 python form (.bytes encoded)
    pure (Int.land (Int.land (crc >>> (16 : Nat)) 0x7fff) (client.vbucketCount - 1))
  else pure vbucket

/-- `Cbstats.__calculate_vbucket_num` -/
def calculateVbucketNum (docKey : PyText) (totalVbuckets : Int) : Except PyError Int := do
  let crc ← zlibCrc32 python form docKey
  pure (Int.land (Int.land (crc >>> (16 : Nat)) 0x7fff) (totalVbuckets - 1))

/-- `crc32.crc32_hash(key) & (vbucket_count - 1)` -/
def hashedVbucket (key : PyText) (vbucketCount : Int) : Except PyError Int := do
  let hash ← crc32Hash python key
  pure (Int.land hash (vbucketCount - 1))

/-- The servers of the vBuckets -/
structure VBucketAwareMemcached where
  vBucketMap : AList fun _ : Int => String

def VBucketAwareMemcached.getVBucketId (aware : VBucketAwareMemcached) (key : PyText) : Except PyError Int := do
  let crc ← zlibCrc32 python form key
  pure (Int.land (crc >>> (16 : Nat)) (aware.vBucketMap.keys.length - 1))

/-- All four place the key in one vBucket of `n`. -/
def VbucketsAgree (client : Client) (aware : VBucketAwareMemcached) (n : Nat)
    (key : PyText) : Prop :=
  ∃ vb : Int, 0 ≤ vb ∧ vb < n ∧
    (∀ vbucket ≤ 0, setVbucketId python form client key vbucket = .ok vb) ∧
    aware.getVBucketId python form key = .ok vb ∧
    calculateVbucketNum python form key n = .ok vb ∧
    hashedVbucket python key n = .ok vb

/-! ## One number -/

/-- The vBucket of the standard code. -/
def standardVbucket (content : Bytes) (k : Nat) : Int :=
  Int.land ((crc32 content : Int) >>> (16 : Nat)) ((2 ^ k - 1 : Nat) : Int)

theorem standardVbucket_bounds (content : Bytes) (k : Nat) :
    0 ≤ standardVbucket content k ∧ standardVbucket content k < 2 ^ k := by
  rw [standardVbucket, land_two_pow_sub_one]
  exact ⟨Int.emod_nonneg _ (by positivity), Int.emod_lt_of_pos _ (by positivity)⟩

theorem mask_of_count {count k : Nat} (counted : count = 2 ^ k) :
    (count : Int) - 1 = ((2 ^ k - 1 : Nat) : Int) := by
  have := Nat.two_pow_pos k
  omega

theorem Crc32Form.read_emod (crc : Nat) : form.read crc % 2 ^ 32 = (crc : Int) % 2 ^ 32 := by
  cases form with
  | unsigned => rfl
  | signed =>
    have balanced : (BitVec.ofNat 32 crc).toInt = (crc : Int).bmod (2 ^ 32) := BitVec.toInt_ofNat' crc
    rw [Crc32Form.read, balanced]
    exact Int.bmod_emod

/-- The sign is above the bits that are left. -/
theorem land_read {k : Nat} (small : k ≤ 15) (content : Bytes) :
    Int.land (form.read (crc32 content) >>> (16 : Nat)) ((2 ^ k - 1 : Nat) : Int) =
      standardVbucket content k := by
  have enough : 16 + k ≤ 32 := by omega
  exact land_shiftRight_congr (form.read_emod (crc32 content)) enough

/-- The mask `0x7fff` leaves the bits of at most `2 ^ 15` vBuckets. -/
theorem land_land_read {k : Nat} (small : k ≤ 15) (content : Bytes) :
    Int.land (Int.land (form.read (crc32 content) >>> (16 : Nat)) 0x7fff) ((2 ^ k - 1 : Nat) : Int) =
      standardVbucket content k := by
  have nested := land_land_two_pow_sub_one (form.read (crc32 content) >>> (16 : Nat)) small
  exact nested.trans (land_read form small content)

variable {python form} {client : Client} {content : Bytes} {k : Nat}

theorem setVbucketId_bytes (small : k ≤ 15) (counted : client.vbucketCount = 2 ^ k) {vbucket : Int}
    (hashed : vbucket ≤ 0) (ascii : AsciiBytes content) :
    setVbucketId .two form client (.bytes content) vbucket = .ok (standardVbucket content k) := by
  have taken : vbucket = 0 ∨ vbucket < 0 := by omega
  have encoded : (PyText.bytes content).encode .two = .ok content := if_pos ascii
  have same := land_land_read form small content
  simp only [setVbucketId, if_pos taken, encoded, mask_of_count counted, zlibCrc32, bind, Except.bind, same]
  rfl

/-- The sign does not show in what the operations of the client send. -/
theorem setVbucket_vbucketId (python : Python) (form : Crc32Form) (client : Client) (key : PyText)
    (vbucket : Int) :
    (setVbucket python client key vbucket).map (fun client => (client.vbucketId : Int)) =
      setVbucketId python form client key vbucket := by
  by_cases taken : vbucket = 0 ∨ vbucket < 0
  · rw [setVbucket, setVbucketId, if_pos taken, if_pos taken]
    cases key.encode python with
    | error raised => rfl
    | ok encoded =>
      have enough : 16 + 15 ≤ 32 := by omega
      have inner : Int.land (form.read (crc32 encoded) >>> (16 : Nat)) 0x7fff =
          (((crc32 encoded >>> 16) &&& 0x7fff : Nat) : Int) :=
        land_shiftRight_congr (form.read_emod (crc32 encoded)) enough
      simp only [bind, Except.bind, pure, Except.pure, Except.map, zlibCrc32, inner, Client.hashVbucket]
      cases client.vbucketCount with
      | zero =>
        -- `& -1`
        have kept : ∀ n : Nat, Int.land (n : Int) (((0 : Nat) : Int) - 1) = n := by
          intro n
          have cleared : Nat.ldiff n 0 = n := Nat.eq_of_testBit_eq fun i => by simp [Nat.testBit_ldiff]
          exact congrArg Nat.cast cleared
        rw [kept]
      | succ count =>
        have mask : ((count + 1 : Nat) : Int) - 1 = (count : Int) := by omega
        rw [mask]
        rfl
  · have above : (vbucket.toNat : Int) = vbucket := Int.toNat_of_nonneg (by omega)
    rw [setVbucket, setVbucketId, if_neg taken, if_neg taken]
    simp only [pure, Except.pure, Except.map, above]

theorem encodes_of_setVbucketId {vbucket vb : Int} (hashed : vbucket ≤ 0)
    (set : setVbucketId python form client (.bytes content) vbucket = .ok vb) :
    python = .two ∧ AsciiBytes content := by
  have taken : vbucket = 0 ∨ vbucket < 0 := by omega
  rw [setVbucketId, if_pos taken] at set
  cases python with
  | two =>
    by_cases ascii : AsciiBytes content
    · exact ⟨rfl, ascii⟩
    · -- `encode` of a byte string decodes it first.
      simp [PyText.encode, ascii, bind, Except.bind] at set
  | three => simp [PyText.encode, bind, Except.bind] at set

theorem calculateVbucketNum_bytes (small : k ≤ 15) :
    calculateVbucketNum python form (.bytes content) (2 ^ k : Nat) =
      .ok (standardVbucket content k) := by
  have same := land_land_read form small content
  simp only [calculateVbucketNum, mask_of_count rfl, zlibCrc32, bind, Except.bind, same]
  rfl

theorem getVBucketId_bytes {aware : VBucketAwareMemcached} (small : k ≤ 15)
    (mapped : aware.vBucketMap.keys.length = 2 ^ k) :
    aware.getVBucketId python form (.bytes content) = .ok (standardVbucket content k) := by
  have same := land_read form small content
  simp only [VBucketAwareMemcached.getVBucketId, mask_of_count mapped, zlibCrc32, bind, Except.bind, same]
  rfl

/-- In Python 2 the table agrees. -/
theorem hashedVbucket_two (small : k ≤ 15) :
    hashedVbucket .two (.bytes content) (2 ^ k : Nat) = .ok (standardVbucket content k) := by
  have hash : Int.land (Int.land (~~~ (((content.map UInt8.toNat).foldl crc32Step (2 ^ 32 - 1) : Nat) : Int) >>> (16 : Nat)) 0x7fff)
      ((2 ^ k - 1 : Nat) : Int) = standardVbucket content k := by
    have nested := land_land_two_pow_sub_one
      (~~~ (((content.map UInt8.toNat).foldl crc32Step (2 ^ 32 - 1) : Nat) : Int) >>> (16 : Nat)) small
    have enough : 16 + k ≤ 32 := by omega
    exact nested.trans (land_shiftRight_congr (complement_foldl_crc32Step content) enough)
  simp only [hashedVbucket, crc32Hash, ords, Except.map, bind, Except.bind, mask_of_count rfl, hash]
  rfl

/-- The four agree on a byte string exactly where it can be encoded again. -/
theorem vbucketsAgree_iff (python : Python) (form : Crc32Form) {client : Client}
    {aware : VBucketAwareMemcached} {k : Nat} (small : k ≤ 15)
    (counted : client.vbucketCount = 2 ^ k) (mapped : aware.vBucketMap.keys.length = 2 ^ k)
    (content : Bytes) :
    VbucketsAgree python form client aware (2 ^ k) (.bytes content) ↔
      python = .two ∧ AsciiBytes content := by
  constructor
  · intro agree
    obtain ⟨vb, _, _, set, _⟩ := agree
    exact encodes_of_setVbucketId (le_refl 0) (set 0 (le_refl 0))
  · intro encodes
    obtain ⟨rfl, ascii⟩ := encodes
    obtain ⟨atLeast, below⟩ := standardVbucket_bounds content k
    have set : ∀ vbucket ≤ 0,
        setVbucketId .two form client (.bytes content) vbucket = .ok (standardVbucket content k) := by
      intro vbucket hashed
      exact setVbucketId_bytes small counted hashed ascii
    exact ⟨standardVbucket content k, atLeast, by exact_mod_cast below, set,
      getVBucketId_bytes small mapped, calculateVbucketNum_bytes small, hashedVbucket_two small⟩

theorem vbucketsAgree_abc :
    VbucketsAgree .two .signed { Client.new "10.0.0.1" with vbucketCount := 2 }
      (⟨assignAll [(0, "10.0.0.1:11210"), (1, "10.0.0.2:11210")] ∅⟩ : VBucketAwareMemcached)
      (2 ^ 1) (.bytes [0x61, 0x62, 0x63]) :=
  (vbucketsAgree_iff .two .signed (by decide) rfl rfl [0x61, 0x62, 0x63]).mpr
    ⟨rfl, by simp [AsciiBytes]⟩

/-- The bytes of `é` are a key that `_get_vBucket_id` places and `_set_vbucket` cannot encode. -/
theorem encoded_key_has_no_vbucket :
    ¬ VbucketsAgree .two .unsigned { Client.new "10.0.0.1" with vbucketCount := 2 }
      (⟨assignAll [(0, "10.0.0.1:11210"), (1, "10.0.0.2:11210")] ∅⟩ : VBucketAwareMemcached)
      (2 ^ 1) (.bytes [0xC3, 0xA9]) := by
  intro agree
  obtain ⟨vb, _, _, set, _⟩ := agree
  have encodes := encodes_of_setVbucketId (by decide) (set (-1) (by decide))
  simp [AsciiBytes] at encodes

end Taf.Memcached
