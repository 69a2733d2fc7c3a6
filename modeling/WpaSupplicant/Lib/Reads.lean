import WpaSupplicant.Lib.Checked
import WpaSupplicant.Lib.Octets

namespace WpaSupplicant.Lib.Reads

open Octets Buffer Checked

-- Checked reads of numbers

variable {buf : List UInt8} {pos n : ℕ}

def readBE (buf : List UInt8) (pos n : ℕ) : Option ℕ := (load buf pos n).map ofBE

def octetAt (buf : List UInt8) (pos : ℕ) : ℕ := ofBE (field buf pos 1)

theorem readBE_eq (h : pos + n ≤ buf.length) : readBE buf pos n = some (ofBE (field buf pos n)) := by
  rw [readBE, load_eq h, Option.map_some]

theorem returns_readBE (h : pos + n ≤ buf.length) : Returns (readBE buf pos n) fun v => v = ofBE (field buf pos n) :=
  ⟨_, readBE_eq h, rfl⟩

theorem returns_octet (h : pos < buf.length) : Returns (readBE buf pos 1) fun v => v = octetAt buf pos :=
  returns_readBE h

theorem octetAt_lt (buf : List UInt8) (pos : ℕ) : octetAt buf pos < 256 := by
  have hlt := ofBE_lt (field buf pos 1)
  have hle : (field buf pos 1).length ≤ 1 := by
    rw [field, List.length_take]
    omega
  exact hlt.trans_le (Nat.pow_le_pow_right (by decide) hle)

theorem load_split {l x r : List UInt8} (hbuf : buf = l ++ x ++ r) (hpos : l.length = pos) (hn : x.length = n) :
    load buf pos n = some x := by
  rw [load_eq (by rw [hbuf, List.length_append, List.length_append]; omega), hbuf, field_append hpos hn]

theorem readBE_split {l x r : List UInt8} (hbuf : buf = l ++ x ++ r) (hpos : l.length = pos) (hn : x.length = n) :
    readBE buf pos n = some (ofBE x) := by
  rw [readBE, load_split hbuf hpos hn, Option.map_some]

theorem load_append {l x : List UInt8} (h : load buf pos n = some l) : load (buf ++ x) pos n = some l := by
  rw [load] at h
  split at h
  · rename_i hle
    cases h
    rw [load_eq (by rw [List.length_append]; omega), field, field, List.drop_append_of_le_length (by omega),
      List.take_append_of_le_length (by rw [List.length_drop]; omega)]
  · cases h

theorem readBE_append {v : ℕ} {x : List UInt8} (h : readBE buf pos n = some v) :
    readBE (buf ++ x) pos n = some v := by
  obtain ⟨l, hl, rfl⟩ := Option.map_eq_some_iff.1 h
  rw [readBE, load_append hl, Option.map_some]

end WpaSupplicant.Lib.Reads
