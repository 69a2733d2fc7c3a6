import WpaSupplicant.Arbiter.Info

namespace WpaSupplicant.Arbiter

open Bss Interworking Lib.Checked

abbrev Oi := { oi : Octets // oi.length < 256 }

-- A Roaming Consortium element as its OIs one after the other
def encodeOis (ois : List Oi) : Octets := ois.flatMap fun oi => UInt8.ofNat oi.1.length :: oi.1

-- The OIs in hexadecimal, with commas between them
def oisText (ois : List Oi) : Octets := List.intercalate [0x2c] (ois.map fun oi => oi.1.flatMap hexOctet)

section Lemmas

variable {list buf buf' rest : Octets} {pos mark fuel : ℕ}

theorem length_hexText (oi : Octets) : (oi.flatMap hexOctet).length = 2 * oi.length := by
  induction oi with
  | nil => rfl
  | cons b oi ih =>
    rw [List.flatMap_cons, List.length_append, ih, List.length_cons]
    simp only [hexOctet, List.length_cons, List.length_nil]
    omega

theorem encodeOis_cons (oi : Oi) (ois : List Oi) :
    encodeOis (oi :: ois) = UInt8.ofNat oi.1.length :: (oi.1 ++ encodeOis ois) := by
  simp [encodeOis]

theorem encodeOis_eq_nil {ois : List Oi} : encodeOis ois = [] ↔ ois = [] := by
  cases ois with
  | nil => simp [encodeOis]
  | cons oi ois => simp [encodeOis_cons]

theorem oisText_nil : oisText [] = [] := rfl

theorem oisText_cons (oi : Oi) (ois : List Oi) : oisText (oi :: ois) =
    oi.1.flatMap hexOctet ++ if ois = [] then [] else 0x2c :: oisText ois := by
  cases ois with
  | nil => simp [oisText, List.intercalate]
  | cons oi' ois => simp [oisText, List.intercalate]

theorem hexLoop_append (done : Octets) {data oi : Octets} {i : ℕ} (hoi : (data.drop i).take oi.length = oi)
    (hfits : 2 * oi.length < rest.length) :
    ∃ rest', hexLoop data (done.length + rest.length) oi.length i done.length (done ++ rest) =
        some (done ++ oi.flatMap hexOctet ++ rest') ∧ rest'.length + 2 * oi.length = rest.length := by
  induction oi generalizing done rest i with
  | nil =>
    obtain ⟨front, last, rfl⟩ := List.eq_nil_or_concat' rest |>.resolve_left fun hnil => by simp [hnil] at hfits
    refine ⟨front ++ [0], ?_, by simp⟩
    have hlast : done.length + (front ++ [last]).length - 1 = (done ++ front).length := by simp
    rw [List.length_nil, hexLoop, hlast, ← List.append_assoc, store_append _ (by simp)]
    simp
  | cons b oi ih =>
    have hi : i < data.length := by
      by_contra hend
      rw [List.drop_of_length_le (by omega)] at hoi
      simp at hoi
    rw [List.drop_eq_getElem_cons hi, List.length_cons, List.take_succ_cons, List.cons.injEq] at hoi
    obtain ⟨hb, htail⟩ := hoi
    have hget : data[i]? = some b := List.getElem?_eq_some_iff.mpr ⟨hi, hb⟩
    rw [List.length_cons] at hfits
    have hprint : osSnprintf (done ++ rest) done.length (done.length + rest.length - done.length) (hexOctet b) =
        some (done ++ hexOctet b ++ 0 :: rest.drop 3) :=
      osSnprintf_append done (by simp only [hexOctet, List.length_cons, List.length_nil]; omega)
        (by simp only [hexOctet, List.length_cons, List.length_nil]; omega)
    have hroom : 2 * oi.length < (0 :: rest.drop 3).length := by
      simp only [List.length_cons, List.length_drop]
      omega
    obtain ⟨rest', hloop, hlen⟩ := ih (done ++ hexOctet b) htail hroom
    have hstop : (done ++ hexOctet b).length + (0 :: rest.drop 3).length = done.length + rest.length := by
      simp only [hexOctet, List.length_append, List.length_cons, List.length_nil, List.length_drop]
      omega
    have hpos : (done ++ hexOctet b).length = done.length + 2 := by simp [hexOctet]
    rw [hstop, hpos] at hloop
    refine ⟨rest', ?_, ?_⟩
    · rw [List.length_cons, hexLoop, hget]
      simp only [hprint]
      rw [if_neg (by omega), hloop]
      simp
    · simp only [List.length_cons, List.length_drop] at hlen ⊢
      omega

theorem length_hexLoop {data : Octets} {stop len i : ℕ} (h : hexLoop data stop len i pos buf = some buf') :
    buf'.length = buf.length := by
  induction len generalizing i pos buf with
  | zero => exact length_store h
  | succ len ih =>
    rw [hexLoop] at h
    split at h
    · cases h
    split at h
    · cases h
    rename_i hprint
    split at h
    · exact (length_store h).trans (length_osSnprintf hprint)
    · exact (ih h).trans (length_osSnprintf hprint)

theorem length_wpaSnprintfHex {size i len : ℕ} (h : wpaSnprintfHex buf pos size list i len = some buf') :
    buf'.length = buf.length := by
  unfold wpaSnprintfHex at h
  split at h
  · cases h
    rfl
  · exact length_hexLoop h

-- What the loop gets through are OIs that end where the element does, with room for their text.
theorem exists_ois_of_loop (hbuf : buf.length = infoSize)
    (h : consortiumLoop list fuel pos mark buf = some buf') :
    ∃ ois, list.drop pos = encodeOis ois ∧ pos ≤ list.length ∧ mark + (oisText ois).length < infoSize := by
  induction fuel generalizing pos mark buf with
  | zero => cases h
  | succ fuel ih =>
    rw [consortiumLoop] at h
    split at h
    · rename_i hend
      refine ⟨[], ?_, by omega, ?_⟩
      · rw [hend, List.drop_length]
        rfl
      · have hle := (store_eq_some.1 h).1
        rw [hbuf] at hle
        simpa [oisText, List.intercalate, Nat.succ_le_iff] using hle
    · rename_i hmore
      split at h
      · cases h
      rename_i len hlen
      split at h
      · cases h
      rename_i buf₁ hhex
      have hbuf₁ : buf₁.length = infoSize := (length_wpaSnprintfHex hhex).trans hbuf
      have hpos : pos < list.length := (List.getElem?_eq_some_iff.mp hlen).1
      dsimp only at h
      -- the OI of this iteration, of octets that are there, where the loop goes on at a position in the list
      have hoi : ∀ {ois}, list.drop (pos + len.toNat + 1) = encodeOis ois → pos + len.toNat + 1 ≤ list.length →
          ∃ oi : Oi, oi.1.length = len.toNat ∧ list.drop pos = encodeOis (oi :: ois) := by
        intro ois hois hle
        have hlength : ((list.drop (pos + 1)).take len.toNat).length = len.toNat := by
          rw [List.length_take, List.length_drop]
          omega
        refine ⟨⟨(list.drop (pos + 1)).take len.toNat, by rw [hlength]; exact len.toNat_lt⟩, hlength, ?_⟩
        rw [encodeOis_cons, ← hois]
        dsimp only
        rw [hlength, UInt8.ofNat_toNat]
        have hget : list.drop pos = len :: list.drop (pos + 1) := by
          rw [List.drop_eq_getElem_cons hpos, (List.getElem?_eq_some_iff.mp hlen).2]
        have hdrop : list.drop (pos + len.toNat + 1) = (list.drop (pos + 1)).drop len.toNat := by
          rw [List.drop_drop]
          congr 1
          omega
        rw [hget, hdrop, List.take_append_drop]
      split at h
      · rename_i hnext
        split at h
        · cases h
        rename_i buf₂ hcomma
        obtain ⟨ois, hois, hle, hroom⟩ := ih ((length_store hcomma).trans hbuf₁) h
        obtain ⟨oi, hoilen, hdrop⟩ := hoi hois hle
        have hne : ois ≠ [] := by
          rintro rfl
          exact hnext (le_antisymm hle (List.drop_eq_nil_iff.mp hois))
        refine ⟨oi :: ois, hdrop, by omega, ?_⟩
        rw [oisText_cons, if_neg hne, List.length_append, length_hexText, List.length_cons]
        omega
      · rename_i hnext
        obtain ⟨ois, hois, hle, hroom⟩ := ih hbuf₁ h
        obtain ⟨oi, hoilen, hdrop⟩ := hoi hois hle
        have hnil : ois = [] := by
          rw [← encodeOis_eq_nil, ← hois, List.drop_eq_nil_iff]
          omega
        refine ⟨oi :: ois, hdrop, by omega, ?_⟩
        rw [oisText_cons, if_pos hnil, List.append_nil, length_hexText]
        omega

theorem loop_of_ois (done : Octets) (ois : List Oi) (hdrop : list.drop pos = encodeOis ois) (hpos : pos ≤ list.length)
    (hbuf : done.length + rest.length = infoSize) (hroom : done.length + (oisText ois).length < infoSize)
    (hfuel : list.length - pos < fuel) :
    ∃ rest', consortiumLoop list fuel pos done.length (done ++ rest) = some (done ++ oisText ois ++ 0 :: rest') := by
  induction ois generalizing pos done rest fuel with
  | nil =>
    obtain ⟨fuel, rfl⟩ : ∃ n, fuel = n + 1 := ⟨fuel - 1, by omega⟩
    have hend : pos = list.length := le_antisymm hpos (List.drop_eq_nil_iff.mp hdrop)
    rw [oisText_nil, List.length_nil] at hroom
    rw [consortiumLoop, if_pos hend, store_append done (by simp only [List.length_cons, List.length_nil]; omega), oisText_nil]
    exact ⟨_, by simp; rfl⟩
  | cons oi ois ih =>
    obtain ⟨fuel, rfl⟩ : ∃ n, fuel = n + 1 := ⟨fuel - 1, by omega⟩
    rw [encodeOis_cons] at hdrop
    have hlt : pos < list.length := by
      by_contra hend
      rw [List.drop_of_length_le (by omega)] at hdrop
      cases hdrop
    rw [List.drop_eq_getElem_cons hlt, List.cons.injEq] at hdrop
    obtain ⟨hlen, hdrop⟩ := hdrop
    have hget : list[pos]? = some (UInt8.ofNat oi.1.length) := List.getElem?_eq_some_iff.mpr ⟨hlt, hlen⟩
    have hnat : (UInt8.ofNat oi.1.length).toNat = oi.1.length := by
      rw [UInt8.toNat_ofNat']
      exact Nat.mod_eq_of_lt oi.2
    have hnext : list.drop (pos + oi.1.length + 1) = encodeOis ois := by
      have hsum : pos + oi.1.length + 1 = pos + 1 + oi.1.length := by omega
      rw [hsum, ← List.drop_drop, hdrop, List.drop_left]
    have hle : pos + 1 + oi.1.length ≤ list.length := by
      have hlength := congrArg List.length hdrop
      rw [List.length_drop, List.length_append] at hlength
      omega
    rw [oisText_cons, List.length_append, length_hexText] at hroom
    have hsize : sizeLeft done.length = rest.length := by
      have hsmall : rest.length < 2 ^ 64 := by
        have hbound : infoSize < 2 ^ 64 := by decide
        omega
      rw [sizeLeft, ← hbuf, ← Nat.add_assoc, Nat.add_right_comm, Nat.add_sub_cancel, Nat.add_mod_left,
        Nat.mod_eq_of_lt hsmall]
    have htake : (list.drop (pos + 1)).take oi.1.length = oi.1 := by rw [hdrop, List.take_left]
    have hfits : 2 * oi.1.length < rest.length := by omega
    obtain ⟨rest₁, hhex, hrest₁⟩ := hexLoop_append done htake hfits
    have hmark : (done ++ oi.1.flatMap hexOctet).length = done.length + 2 * oi.1.length := by
      rw [List.length_append, length_hexText]
    rw [consortiumLoop, if_neg (by omega), hget]
    dsimp only
    rw [hnat, wpaSnprintfHex, hsize, if_neg (by omega), hhex]
    dsimp only
    rw [← hmark]
    have hless : list.length - (pos + oi.1.length + 1) < fuel := by omega
    by_cases hnil : ois = []
    · have hend : pos + oi.1.length + 1 = list.length := by
        rw [hnil] at hnext
        exact le_antisymm (by omega) (List.drop_eq_nil_iff.mp hnext)
      rw [if_neg (by omega)]
      have hsum : (done ++ oi.1.flatMap hexOctet).length + rest₁.length = infoSize := by omega
      obtain ⟨rest', hloop⟩ := ih _ hnext (by omega) hsum
        (by rw [hnil, oisText_nil, hmark]; simpa [hnil] using hroom) hless
      refine ⟨rest', ?_⟩
      rw [hloop, oisText_cons, if_pos hnil, hnil]
      simp [oisText_nil]
    · have hmore : pos + oi.1.length + 1 ≠ list.length := by
        intro hend
        rw [hend, List.drop_length] at hnext
        exact hnil (encodeOis_eq_nil.1 hnext.symm)
      rw [if_neg hnil, List.length_cons] at hroom
      rw [if_pos hmore, store_append _ (by simp only [List.length_cons, List.length_nil]; omega)]
      dsimp only
      have hcomma : (done ++ oi.1.flatMap hexOctet ++ [0x2c]).length = (done ++ oi.1.flatMap hexOctet).length + 1 := by
        simp only [List.length_append, List.length_singleton]
      have hsum : (done ++ oi.1.flatMap hexOctet ++ [0x2c]).length + (rest₁.drop [(0x2c : UInt8)].length).length =
          infoSize := by
        rw [hcomma, hmark, List.length_drop, List.length_singleton]
        omega
      obtain ⟨rest', hloop⟩ := ih _ hnext (by omega) hsum (by rw [hcomma, hmark]; omega) hless
      refine ⟨rest', ?_⟩
      rw [← hcomma, hloop, oisText_cons, if_neg hnil]
      simp

end Lemmas

-- Nothing outside of the element is read and nothing outside of the buffer is written exactly where the OIs end with
-- the element and their text fits.
theorem consortium_in_bounds (bss : Entry) (list buf : Octets) (hlist : bss.anqp.roamingConsortium = some list)
    (hbuf : buf.length = infoSize) :
    (∃ buf', getRoamingConsortium bss buf = some buf') ↔
      ∃ ois, list = encodeOis ois ∧ (oisText ois).length + 1 ≤ infoSize := by
  rw [getRoamingConsortium, hlist]
  constructor
  · rintro ⟨buf', h⟩
    obtain ⟨ois, hois, -, hroom⟩ := exists_ois_of_loop hbuf h
    exact ⟨ois, hois, by omega⟩
  · rintro ⟨ois, hois, hroom⟩
    have hdrop : list.drop 0 = encodeOis ois := hois
    have hsum : ([] : Octets).length + buf.length = infoSize := by simpa using hbuf
    obtain ⟨rest, h⟩ := loop_of_ois [] ois hdrop (by omega) hsum (by simpa [Nat.succ_le_iff] using hroom)
      (Nat.lt_succ_self _)
    exact ⟨_, h⟩

def consortiumBss (list : Octets) : Entry :=
  { serial := 0, lastUpdateIdx := 0, anqp := { roamingConsortium := some list } }

theorem one_oi_in_bounds :
    (∃ buf', getRoamingConsortium (consortiumBss [3, 0x50, 0x6f, 0x9a]) (List.replicate infoSize 0) = some buf') ↔
      ∃ ois, [3, 0x50, 0x6f, 0x9a] = encodeOis ois ∧ (oisText ois).length + 1 ≤ infoSize :=
  consortium_in_bounds (consortiumBss [3, 0x50, 0x6f, 0x9a]) [3, 0x50, 0x6f, 0x9a] (List.replicate infoSize 0) rfl
    List.length_replicate

-- The octets of an OI that is cut off are read behind the element.
theorem truncated_oi_overread :
    getRoamingConsortium (consortiumBss [5, 0x50]) (List.replicate infoSize 0) = none := by
  refine Option.eq_none_iff_forall_not_mem.mpr fun buf' hbuf' => ?_
  obtain ⟨ois, hois, -, -⟩ := exists_ois_of_loop List.length_replicate hbuf'
  cases ois with
  | nil => simp [encodeOis] at hois
  | cons oi ois =>
    rw [List.drop_zero, encodeOis_cons, List.cons.injEq] at hois
    have hfive := congrArg UInt8.toNat hois.1
    have hone := congrArg List.length hois.2
    simp only [UInt8.toNat_ofNat', UInt8.reduceToNat, List.length_append, List.length_singleton] at hfive hone
    omega

end WpaSupplicant.Arbiter
