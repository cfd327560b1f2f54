import Taf.Memcached.Pipeline

/-! # What the reads return

`get`, `gat`, `getl` and `getr` of `lib/mc_bin_client.py`, from the response on.  The response of the
replica read has the key in front of the value, and `__parseGet` does not use the length of the key
there: it looks for the last brace of the body. -/

namespace Taf.Memcached

open Taf.Lib

/-- `__parseGet(data, klen)` -/
def parseGetKeyed (parts : Nat × Nat × Bytes) (klen : Nat) : Except Raised (Nat × Nat × Bytes) :=
  if klen = 0 then parseGet parts
  else if parts.2.2.length < 4 then .error (.python .structError)
  else
    let value := ((parts.2.2.splitOn 0x7b).getLast?).getD []
    .ok (beNat (parts.2.2.take 4), parts.2.1, 0x7b :: value)

section Returns

variable (errorMap : Option ErrorMap) (draw : Nat) (key : PyText) (received : Received)

/-- `parts = self._doCmd(..)` and `return self.__parseGet(parts)` -/
def getReturn : Except Raised (Nat × Nat × Bytes) := do
  let parts ← handleSingleResponse errorMap (some draw) received
  parseGetKeyed parts 0

def gatReturn : Except Raised (Nat × Nat × Bytes) := getReturn errorMap draw received

def getlReturn : Except Raised (Nat × Nat × Bytes) := getReturn errorMap draw received

/-- `return self.__parseGet(parts, len(key))` -/
def getrReturn : Except Raised (Nat × Nat × Bytes) := do
  let parts ← handleSingleResponse errorMap (some draw) received
  parseGetKeyed parts key.len

end Returns

/-! ## The answers of the server -/

structure StoredDoc where
  flags : UInt32
  cas : UInt64
  value : Bytes

/-- The answer to a read: the flags as extras, then the key if the command has it, then the value -/
def StoredDoc.answer (doc : StoredDoc) (cmd draw : Nat) (key : Bytes) : Received where
  cmd := cmd
  errcode := 0
  opaqueNumber := draw
  cas := doc.cas.toNat
  keylen := key.length
  extralen := 4
  dtype := 0
  body := beBytes 4 doc.flags.toNat ++ (key ++ doc.value)

def StoredDoc.parts (doc : StoredDoc) : Nat × Nat × Bytes := (doc.flags.toNat, doc.cas.toNat, doc.value)

/-- All four reads return the stored document. -/
def ReadsAgree (errorMap : Option ErrorMap) (draw : Nat) (key : PyText) (doc : StoredDoc) : Prop :=
  getReturn errorMap draw (doc.answer 0 draw []) = .ok doc.parts ∧
    gatReturn errorMap draw (doc.answer 0x1d draw []) = .ok doc.parts ∧
    getlReturn errorMap draw (doc.answer 0x94 draw []) = .ok doc.parts ∧
    getrReturn errorMap draw key (doc.answer 0x83 draw key.wire) = .ok doc.parts

theorem handleSingleResponse_answer (errorMap : Option ErrorMap) (doc : StoredDoc) (cmd draw : Nat) (key : Bytes) :
    handleSingleResponse errorMap (some draw) (doc.answer cmd draw key) =
      .ok (draw, doc.cas.toNat, beBytes 4 doc.flags.toNat ++ (key ++ doc.value)) := by
  simp [handleSingleResponse, handleKeyedResponse, StoredDoc.answer, Except.map]

theorem beNat_flags (flags : UInt32) : beNat (beBytes 4 flags.toNat) = flags.toNat := by
  rw [beNat_beBytes, Nat.mod_eq_of_lt (by simpa using flags.toNat_lt)]

/-- Behind the extras alone there is the value. -/
theorem getReturn_answer (errorMap : Option ErrorMap) (doc : StoredDoc) (cmd draw : Nat) :
    getReturn errorMap draw (doc.answer cmd draw []) = .ok doc.parts := by
  rw [getReturn, handleSingleResponse_answer]
  simp [bind, Except.bind, parseGetKeyed, parseGet, beNat_flags, StoredDoc.parts]

/-- The last piece of a text that ends with a brace and a piece without one -/
theorem lastPiece_append_cons {brace : UInt8} {tail : Bytes} (plain : brace ∉ tail) (front : Bytes) :
    ((front ++ brace :: tail).splitOn brace).getLast? = some tail := by
  rw [List.splitOn_append_cons_self, List.splitOn_eq_singleton plain, List.getLast?_append]
  rfl

theorem wire_eq_nil_of_len {key : PyText} (empty : key.len = 0) : key.wire = [] := by
  cases key with
  | bytes content => exact List.eq_nil_of_length_eq_zero empty
  | unicode content =>
    rw [show content = [] from List.eq_nil_of_length_eq_zero empty]
    rfl

theorem getrReturn_answer (errorMap : Option ErrorMap) (draw : Nat) {key : PyText} (doc : StoredDoc)
    (nonempty : key.len ≠ 0) : getrReturn errorMap draw key (doc.answer 0x83 draw key.wire) =
      .ok (doc.flags.toNat, doc.cas.toNat, 0x7b ::
        (((beBytes 4 doc.flags.toNat ++ (key.wire ++ doc.value)).splitOn 0x7b).getLast?).getD []) := by
  rw [getrReturn, handleSingleResponse_answer]
  simp [bind, Except.bind, parseGetKeyed, nonempty, beNat_flags]

/-- With a key the value is read back exactly if its first byte is its only brace: the last piece of the
    body has no brace, and it is the rest of such a value. -/
theorem getrReturn_answer_iff (errorMap : Option ErrorMap) (draw : Nat) (key : PyText) (doc : StoredDoc) :
    getrReturn errorMap draw key (doc.answer 0x83 draw key.wire) = .ok doc.parts ↔
      key.len = 0 ∨ ∃ tail, doc.value = 0x7b :: tail ∧ 0x7b ∉ tail := by
  by_cases empty : key.len = 0
  · refine iff_of_true ?_ (.inl empty)
    have unkeyed := getReturn_answer errorMap doc 0x83 draw
    rw [getReturn] at unkeyed
    rw [getrReturn, empty, wire_eq_nil_of_len empty]
    exact unkeyed
  · rw [getrReturn_answer errorMap draw doc empty, or_iff_right empty]
    simp only [StoredDoc.parts, Except.ok.injEq, Prod.mk.injEq, true_and]
    constructor
    · intro same
      -- What `split` returns has no brace, and this is all that is returned of the value.
      have piece : ∀ piece ∈ ((beBytes 4 doc.flags.toNat ++ (key.wire ++ doc.value)).splitOn 0x7b).getLast?,
          0x7b ∉ piece := fun piece member => notMem_of_mem_splitOn (List.mem_of_getLast? member)
      refine ⟨_, same.symm, ?_⟩
      cases last : ((beBytes 4 doc.flags.toNat ++ (key.wire ++ doc.value)).splitOn 0x7b).getLast? with
      | none => simp
      | some tail => exact piece tail last
    · intro ⟨tail, isValue, plain⟩
      have front : beBytes 4 doc.flags.toNat ++ (key.wire ++ 0x7b :: tail) =
          (beBytes 4 doc.flags.toNat ++ key.wire) ++ 0x7b :: tail := (List.append_assoc ..).symm
      rw [isValue, front, lastPiece_append_cons plain]
      rfl

/-- The four reads agree on a document exactly if its value is an object without an inner brace, or the key
    is empty. -/
theorem readsAgree_iff (errorMap : Option ErrorMap) (draw : Nat) (key : PyText) (doc : StoredDoc) :
    ReadsAgree errorMap draw key doc ↔
      key.len = 0 ∨ ∃ tail, doc.value = 0x7b :: tail ∧ 0x7b ∉ tail := by
  rw [ReadsAgree, getrReturn_answer_iff]
  simp only [gatReturn, getlReturn, getReturn_answer, true_and]

/-- Of the value `{"a":{}}` the replica read returns `{}}`. -/
theorem replica_of_nested_differs :
    ¬ ReadsAgree none 7 (.bytes (utf8 ['k'])) ⟨0, 1, utf8 ['{', '"', 'a', '"', ':', '{', '}', '}']⟩ := by
  intro ⟨_, _, _, returned⟩
  revert returned
  decide +kernel

end Taf.Memcached
