import Mathlib

/-! # Streams of records

A reader takes the record off the front of a stream and says what is left.  A stream decodes to a list
of items if its records, read one behind the other, are those of the items and nothing comes after
them; a reader that undoes a writer on every rest decodes whatever the writer has put together. -/

namespace Taf.Lib

variable {σ α ι : Type*}

/-- The records of the stream, one for each item -/
def Decodes (read : List σ → Option (α × List σ)) (describes : ι → α → Prop) : List σ → List ι → Prop
  | stream, [] => stream = []
  | stream, item :: items =>
    ∃ record rest, read stream = some (record, rest) ∧ describes item record ∧
      Decodes read describes rest items

variable {read : List σ → Option (α × List σ)} {describes : ι → α → Prop} {write : ι → List σ}

theorem decodes_cons_iff {stream rest : List σ} {record : α} {item : ι} {items : List ι}
    (front : read stream = some (record, rest)) : Decodes read describes stream (item :: items) ↔
      describes item record ∧ Decodes read describes rest items := by
  rw [Decodes]
  constructor
  · intro ⟨record', rest', found, described, decodes⟩
    obtain ⟨rfl, rfl⟩ := Prod.mk.inj (Option.some.inj (front.symm.trans found))
    exact ⟨described, decodes⟩
  · intro ⟨described, decodes⟩
    exact ⟨record, rest, front, described, decodes⟩

end Taf.Lib
