import GuestScript.Proofs.Split

/-!
# Percent escapes, read and written

There are two sorts of them: links, which are written byte by byte, and the older escapes, unit by unit.

`decodeLink?` takes a text apart from the left. `Reads` says without an order of reading what a link is and what
it stands for: a sequence of pieces, each of them one character that is no percent sign, or the escapes of all
bytes of one character. The escapes of a kept ASCII character stand for themselves, all others for the character.

* `decodeLink?_accepts`: the reader gives a text exactly when the link stands for it, where a plus sign may be the
  first digit of an escape (`Reads true`). The grammar with two hexadecimal digits in every escape (`Reads false`)
  is that of the reader on the texts in which no plus sign follows a percent sign, and has no other links.
* `decodeLink?_undoes_encodeLink`: a written link is read as the text that it was written for.

The older escapes are written unit by unit: a plain character for itself, a unit below 256 with two hexadecimal digits,
any other with a `u` and four. The reader tries the long form, then the short one, and takes everything else as it
stands. `unescapeFrom_escapeUnit` is the step: whatever follows, what was written for one unit is read as that unit and
no more, since a hexadecimal digit is no `u` and a plain character is no percent sign. `unescape_escape` follows for
whole texts, and for the functions of the guest.
-/

namespace GuestScript.Text

/-! ## 1. The grammar -/

/-- The bytes of a character in UTF-8. -/
def utf8 (c : Char) : List Nat :=
  (String.utf8EncodeChar c).map UInt8.toNat

/-- `n` is the number of two hexadecimal digits; if `signed`, also of a plus sign and one digit. -/
def IsByte (signed : Bool) (a b : Char) (n : Nat) : Prop :=
  ∃ low, Number.digitOf? 16 b = some low ∧
    (signed = true ∧ a = '+' ∧ n = low ∨
      ∃ high, Number.digitOf? 16 a = some high ∧ n = 16 * high + low)

/-- A text spells some bytes, each by one escape. -/
inductive Escapes (signed : Bool) : List Nat → List Char → Prop
  | nil : Escapes signed [] []
  | cons {n : Nat} {ns : List Nat} {a b : Char} {cs : List Char} (hbyte : IsByte signed a b n)
      (hrest : Escapes signed ns cs) : Escapes signed (n :: ns) ('%' :: a :: b :: cs)

/-- A piece of a link, and the text that it stands for. -/
inductive Piece (kept : List Char) (signed : Bool) : List Char → List Char → Prop
  | plain {c : Char} (hc : c ≠ '%') : Piece kept signed [c] [c]
  | keeps {c : Char} {cs : List Char} (hascii : c.toNat < 0x80) (hkept : c ∈ kept)
      (hcs : Escapes signed (utf8 c) cs) : Piece kept signed cs cs
  | group {c : Char} {cs : List Char} (hfree : c.toNat < 0x80 → c ∉ kept)
      (hcs : Escapes signed (utf8 c) cs) : Piece kept signed cs [c]

/-- A link, and the text that it stands for. -/
inductive Reads (kept : List Char) (signed : Bool) : List Char → List Char → Prop
  | nil : Reads kept signed [] []
  | cons {w out s t : List Char} (hpiece : Piece kept signed w out) (hrest : Reads kept signed s t) :
      Reads kept signed (w ++ s) (out ++ t)

variable {kept : List Char} {signed : Bool} {a b c : Char} {n : Nat} {ns : List Nat}
  {w cs out rest s t : List Char}

/-! ## 2. The bytes of a character -/

theorem utf8_ascii (h : c.toNat < 0x80) : utf8 c = [c.toNat] := by
  have h' : c.toNat ≤ 127 := by omega
  simp [utf8, String.utf8EncodeChar, h']
  omega

/-- The first byte of a character that is not ASCII says how many bytes it takes. -/
theorem utf8_wide (h : 0x80 ≤ c.toNat) :
    ∃ first more, utf8 c = first :: more ∧ sequenceWidth? first = some (more.length + 1) := by
  have hc : ¬ c.toNat ≤ 127 := by omega
  simp only [utf8, String.utf8EncodeChar, Char.toNat_val, if_neg hc]
  split
  · exact ⟨_, _, rfl, by grind [sequenceWidth?, UInt8.toNat_ofNat']⟩
  · split
    · exact ⟨_, _, rfl, by grind [sequenceWidth?, UInt8.toNat_ofNat']⟩
    · exact ⟨_, _, rfl, by grind [sequenceWidth?, UInt8.toNat_ofNat']⟩

theorem le_of_sequenceWidth? {k : Nat} (h : sequenceWidth? n = some k) : 0x80 ≤ n := by
  grind [sequenceWidth?]

theorem lt_of_mem_utf8 (h : n ∈ utf8 c) : n < 256 := by
  obtain ⟨x, -, rfl⟩ := List.mem_map.mp h
  exact x.toNat_lt

theorem utf8_ne_nil : utf8 c ≠ [] := by
  simp [utf8]

/-- A character whose first byte is ASCII is that byte. -/
theorem utf8_eq_cons_ascii (h : utf8 c = n :: ns) (hn : n < 0x80) : c.toNat = n ∧ ns = [] := by
  by_cases hc : c.toNat < 0x80
  · simpa [utf8_ascii hc, eq_comm] using h
  · obtain ⟨first, more, hbytes, hwidth⟩ := utf8_wide (Nat.not_lt.mp hc)
    obtain ⟨rfl, -⟩ := List.cons.inj (h.symm.trans hbytes)
    exact absurd (le_of_sequenceWidth? hwidth) (by omega)

/-- A character whose first byte is not ASCII has the length that this byte says. -/
theorem utf8_eq_cons_wide (h : utf8 c = n :: ns) (hn : 0x80 ≤ n) : sequenceWidth? n = some (ns.length + 1) := by
  by_cases hc : c.toNat < 0x80
  · obtain ⟨rfl, -⟩ := List.cons.inj ((utf8_ascii hc).symm.trans h)
    omega
  · obtain ⟨first, more, hbytes, hwidth⟩ := utf8_wide (Nat.not_lt.mp hc)
    obtain ⟨rfl, rfl⟩ := List.cons.inj (h.symm.trans hbytes)
    exact hwidth

theorem flatMap_utf8 (cs : List Char) :
    cs.flatMap utf8 = (cs.flatMap String.utf8EncodeChar).map UInt8.toNat := by
  rw [List.map_flatMap]
  rfl

theorem toNat_toUInt8 (h : ∀ n ∈ ns, n < 256) : (ns.map Nat.toUInt8).map UInt8.toNat = ns := by
  rw [List.map_map]
  exact (List.map_congr_left fun n hn => by simpa using h n hn).trans (List.map_id ns)

/-- Bytes are read as exactly the characters whose bytes they are. -/
theorem ofBytes?_eq_some_iff (h : ∀ n ∈ ns, n < 256) : ofBytes? ns = some cs ↔ ns = cs.flatMap utf8 := by
  have hmk : ByteArray.mk (ns.map Nat.toUInt8).toArray = (ns.map Nat.toUInt8).toByteArray :=
    ByteArray.ext List.data_toByteArray.symm
  have hbytes : cs.utf8Encode = (ns.map Nat.toUInt8).toByteArray ↔ ns = cs.flatMap utf8 := by
    rw [List.utf8Encode, List.toByteArray_inj, flatMap_utf8]
    constructor
    · intro hcs
      rw [hcs, toNat_toUInt8 h]
    · rintro rfl
      simp [Function.comp_def]
  rw [← hbytes, ofBytes?, String.fromUTF8?, hmk]
  constructor
  · intro hsome
    split at hsome
    case isTrue hvalid =>
      have hcs : (String.fromUTF8 _ hvalid).toList = cs := by simpa using hsome
      rw [← hcs, String.utf8Encode_toList, String.fromUTF8]
    case isFalse => simp at hsome
  · intro hcs
    rw [← hcs, dif_pos ByteArray.isValidUTF8_utf8Encode]
    have htext : String.fromUTF8 cs.utf8Encode ByteArray.isValidUTF8_utf8Encode = String.ofList cs :=
      String.toByteArray_inj.mp (by rw [String.fromUTF8, String.toByteArray_ofList])
    simp [htext]

/-- A first byte and as many more as it says are read as one character, if at all. -/
theorem ofBytes?_cons (h : ∀ m ∈ n :: ns, m < 256) (hwidth : sequenceWidth? n = some (ns.length + 1)) :
    ofBytes? (n :: ns) = some cs ↔ ∃ c, cs = [c] ∧ utf8 c = n :: ns := by
  rw [ofBytes?_eq_some_iff h]
  constructor
  · intro hns
    cases cs with
    | nil => simp at hns
    | cons c cs =>
      obtain ⟨first, more, hc⟩ := List.exists_cons_of_ne_nil (utf8_ne_nil (c := c))
      obtain ⟨rfl, rfl⟩ : n = first ∧ ns = more ++ cs.flatMap utf8 := by simpa [hc] using hns
      have hlen := hwidth.symm.trans (utf8_eq_cons_wide hc (le_of_sequenceWidth? hwidth))
      have hrest : cs.flatMap utf8 = [] := List.eq_nil_of_length_eq_zero (by simpa [-List.length_flatMap] using hlen)
      cases cs with
      | nil => exact ⟨c, rfl, by simpa using hc⟩
      | cons d cs => exact absurd (List.append_eq_nil_iff.mp hrest).1 utf8_ne_nil
  · rintro ⟨c, rfl, hc⟩
    simpa using hc.symm

/-! ## 3. Reading -/

theorem hexPair?_eq_some_iff : hexPair? a b = some n ↔ IsByte true a b n := by
  unfold hexPair? IsByte
  cases Number.digitOf? 16 b with
  | none => simp
  | some low =>
    by_cases ha : a = '+'
    · subst ha
      have hplus : Number.digitOf? 16 '+' = none := by decide
      simp [hplus, eq_comm]
    · simp [ha, eq_comm (a := n), Option.map_eq_some_iff]

theorem readByte?_eq_some_iff :
    readByte? cs = some (n, rest) ↔ ∃ a b, cs = '%' :: a :: b :: rest ∧ IsByte true a b n := by
  unfold readByte?
  split
  · simp [hexPair?_eq_some_iff]
    grind
  · simp
    grind

theorem lt_of_digitOf? (h : Number.digitOf? 16 a = some n) : n < 16 := by
  unfold Number.digitOf? at h
  grind

theorem IsByte.lt (h : IsByte signed a b n) : n < 256 := by
  obtain ⟨low, hlow, ⟨-, -, rfl⟩ | ⟨high, hhigh, rfl⟩⟩ := h
  · exact Nat.lt_trans (lt_of_digitOf? hlow) (by decide)
  · have := lt_of_digitOf? hlow
    have := lt_of_digitOf? hhigh
    omega

theorem readBytes?_eq_some_iff {k : Nat} :
    readBytes? k cs = some (ns, rest) ↔ ns.length = k ∧ ∃ w, cs = w ++ rest ∧ Escapes true ns w := by
  induction k generalizing ns cs with
  | zero =>
    constructor
    · intro h
      obtain ⟨rfl, rfl⟩ : [] = ns ∧ cs = rest := by simpa [readBytes?] using h
      exact ⟨rfl, [], rfl, .nil⟩
    · rintro ⟨hlen, w, rfl, hw⟩
      cases hw with
      | nil => rfl
      | cons => simp at hlen
  | succ k ih =>
    constructor
    · intro h
      obtain ⟨⟨n, after⟩, hfirst, h⟩ := Option.bind_eq_some_iff.mp h
      obtain ⟨⟨more, last⟩, hmore, h⟩ := Option.bind_eq_some_iff.mp h
      obtain ⟨rfl, rfl⟩ : n :: more = ns ∧ last = rest := by simpa using h
      obtain ⟨a, b, rfl, hbyte⟩ := readByte?_eq_some_iff.mp hfirst
      obtain ⟨hlen, w, rfl, hw⟩ := ih.mp hmore
      exact ⟨by simp [hlen], '%' :: a :: b :: w, rfl, .cons hbyte hw⟩
    · rintro ⟨hlen, w, rfl, hw⟩
      cases hw with
      | nil => simp at hlen
      | cons hbyte hmore =>
        refine Option.bind_eq_some_iff.mpr ⟨_, readByte?_eq_some_iff.mpr ⟨_, _, rfl, hbyte⟩, ?_⟩
        exact Option.bind_eq_some_iff.mpr ⟨_, ih.mpr ⟨by simpa using hlen, _, rfl, hmore⟩, rfl⟩

theorem Escapes.lt (h : Escapes signed ns cs) : ∀ n ∈ ns, n < 256 := by
  induction h with
  | nil => simp
  | cons hbyte _ ih => exact List.forall_mem_cons.mpr ⟨hbyte.lt, ih⟩

/-- After a first byte that is not ASCII the reader takes the escapes of the other bytes of a character. -/
theorem readGroup_eq_some_iff (hn : n < 256) :
    (do let width ← sequenceWidth? n
        let (more, after) ← readBytes? (width - 1) cs
        pure (← ofBytes? (n :: more), after)) = some (out, rest) ↔
      0x80 ≤ n ∧ ∃ c ns w, out = [c] ∧ utf8 c = n :: ns ∧ cs = w ++ rest ∧ Escapes true ns w := by
  constructor
  · intro h
    obtain ⟨width, hwidth, h⟩ := Option.bind_eq_some_iff.mp h
    obtain ⟨⟨more, after⟩, hmore, h⟩ := Option.bind_eq_some_iff.mp h
    obtain ⟨text, htext, h⟩ := Option.bind_eq_some_iff.mp h
    obtain ⟨rfl, rfl⟩ : text = out ∧ after = rest := by simpa using h
    obtain ⟨hlen, w, rfl, hw⟩ := readBytes?_eq_some_iff.mp hmore
    have hpos : width = more.length + 1 := by grind [sequenceWidth?]
    obtain ⟨c, rfl, hc⟩ := (ofBytes?_cons (List.forall_mem_cons.mpr ⟨hn, hw.lt⟩) (hpos ▸ hwidth)).mp htext
    exact ⟨le_of_sequenceWidth? hwidth, c, more, w, rfl, hc, rfl, hw⟩
  · rintro ⟨hwide, c, ns, w, rfl, hc, rfl, hw⟩
    have hwidth := utf8_eq_cons_wide hc hwide
    refine Option.bind_eq_some_iff.mpr ⟨_, hwidth, ?_⟩
    refine Option.bind_eq_some_iff.mpr ⟨_, readBytes?_eq_some_iff.mpr ⟨by simp, w, rfl, hw⟩, ?_⟩
    have htext := (ofBytes?_cons (List.forall_mem_cons.mpr ⟨hn, hw.lt⟩) hwidth).mpr ⟨c, rfl, hc⟩
    exact Option.bind_eq_some_iff.mpr ⟨_, htext, rfl⟩

theorem readLinkChar?_escape (hbyte : IsByte true a b n) :
    readLinkChar? kept ('%' :: a :: b :: cs) =
      if n < 0x80 then
        if kept.contains (Char.ofNat n) then some (['%', a, b], cs) else some ([Char.ofNat n], cs)
      else (do
        let width ← sequenceWidth? n
        let (more, after) ← readBytes? (width - 1) cs
        pure (← ofBytes? (n :: more), after)) := by
  simp [readLinkChar?, readByte?_eq_some_iff.mpr ⟨a, b, rfl, hbyte⟩]

theorem escapes_ascii (h : c.toNat < 0x80) :
    Escapes signed (utf8 c) cs ↔ ∃ a b, cs = ['%', a, b] ∧ IsByte signed a b c.toNat := by
  rw [utf8_ascii h]
  constructor
  · rintro (_ | ⟨hbyte, ⟨⟩⟩)
    exact ⟨_, _, rfl, hbyte⟩
  · rintro ⟨a, b, rfl, hbyte⟩
    exact .cons hbyte .nil

/-- The reader takes exactly a piece from the front of a text. -/
theorem readLinkChar?_eq_some_iff :
    readLinkChar? kept cs = some (out, rest) ↔ ∃ w, cs = w ++ rest ∧ Piece kept true w out := by
  constructor
  · intro h
    obtain - | ⟨c, cs⟩ := cs
    · simp [readLinkChar?] at h
    by_cases hc : c = '%'
    · subst hc
      obtain ⟨⟨n, after⟩, hfirst, -⟩ := Option.bind_eq_some_iff.mp h
      obtain ⟨a, b, heq, hbyte⟩ := readByte?_eq_some_iff.mp hfirst
      obtain rfl := (List.cons.inj heq).2
      rw [readLinkChar?_escape hbyte] at h
      by_cases hascii : n < 0x80
      · obtain ⟨c, rfl⟩ : ∃ c : Char, c.toNat = n :=
          ⟨Char.ofNatAux n (.inl (Nat.lt_trans hascii (by decide))), rfl⟩
        have hcs := (escapes_ascii hascii).mpr ⟨a, b, rfl, hbyte⟩
        by_cases hkept : c ∈ kept
        · obtain ⟨rfl, rfl⟩ : ['%', a, b] = out ∧ after = rest := by simpa [hascii, hkept] using h
          exact ⟨_, rfl, .keeps hascii hkept hcs⟩
        · obtain ⟨rfl, rfl⟩ : [c] = out ∧ after = rest := by simpa [hascii, hkept] using h
          exact ⟨_, rfl, .group (fun _ => hkept) hcs⟩
      · rw [if_neg hascii] at h
        obtain ⟨hwide, c, ns, w, rfl, hc, rfl, hw⟩ := (readGroup_eq_some_iff hbyte.lt).mp h
        refine ⟨'%' :: a :: b :: w, rfl, .group (fun hlt => ?_) (hc ▸ .cons hbyte hw)⟩
        obtain ⟨rfl, -⟩ := List.cons.inj ((utf8_ascii hlt).symm.trans hc)
        exact absurd hlt hascii
    · obtain ⟨rfl, rfl⟩ : [c] = out ∧ cs = rest := by simpa [readLinkChar?, hc] using h
      exact ⟨[c], rfl, .plain hc⟩
  · rintro ⟨w, rfl, hw⟩
    cases hw with
    | plain hc => simp [readLinkChar?, hc]
    | @keeps c w hascii hkept hcs =>
      obtain ⟨a, b, rfl, hbyte⟩ := (escapes_ascii hascii).mp hcs
      simp [readLinkChar?_escape hbyte, hascii, hkept]
    | @group c w hfree hcs =>
      by_cases hascii : c.toNat < 0x80
      · obtain ⟨a, b, rfl, hbyte⟩ := (escapes_ascii hascii).mp hcs
        simp [readLinkChar?_escape hbyte, hascii, hfree hascii]
      · obtain ⟨n, ns, hc⟩ := List.exists_cons_of_ne_nil (utf8_ne_nil (c := c))
        rw [hc] at hcs
        obtain - | ⟨hbyte, hrest⟩ := hcs
        have hwide : 0x80 ≤ n := by
          refine Nat.le_of_not_lt fun hn => hascii ?_
          rwa [(utf8_eq_cons_ascii hc hn).1]
        rw [List.cons_append, List.cons_append, List.cons_append, readLinkChar?_escape hbyte, if_neg (by omega)]
        exact (readGroup_eq_some_iff hbyte.lt).mpr ⟨hwide, c, ns, _, rfl, hc, rfl, hrest⟩

theorem Piece.ne_nil (h : Piece kept signed w out) : w ≠ [] := by
  have hescapes {c : Char} {cs : List Char} (hcs : Escapes signed (utf8 c) cs) : cs ≠ [] := by
    rintro rfl
    generalize hns : utf8 c = ns at hcs
    obtain - | - := hcs
    exact utf8_ne_nil hns
  cases h with
  | plain => simp
  | keeps _ _ hcs => exact hescapes hcs
  | group _ hcs => exact hescapes hcs

theorem Reads.inv (h : Reads kept signed s t) :
    s = [] ∧ t = [] ∨
      ∃ w out s' t', s = w ++ s' ∧ t = out ++ t' ∧ Piece kept signed w out ∧ Reads kept signed s' t' := by
  obtain - | ⟨hpiece, hrest⟩ := h
  · exact .inl ⟨rfl, rfl⟩
  · exact .inr ⟨_, _, _, _, rfl, rfl, hpiece, hrest⟩

theorem reads_nil_iff : Reads kept signed [] t ↔ t = [] := by
  constructor
  · intro h
    obtain ⟨-, ht⟩ | ⟨w, out, s', t', hs, -, hpiece, -⟩ := h.inv
    · exact ht
    · exact absurd (List.append_eq_nil_iff.mp hs.symm).1 hpiece.ne_nil
  · rintro rfl
    exact .nil

theorem decodeLinkFrom?_eq_some_iff {fuel : Nat} {acc : List Char} (hfuel : cs.length ≤ fuel) :
    decodeLinkFrom? kept fuel cs acc = some t ↔ ∃ u, t = acc.reverse ++ u ∧ Reads kept true cs u := by
  have hnil : some acc.reverse = some t ↔ ∃ u, t = acc.reverse ++ u ∧ Reads kept true [] u := by
    simp [reads_nil_iff, eq_comm]
  induction fuel generalizing cs acc with
  | zero =>
    obtain rfl := List.eq_nil_of_length_eq_zero (Nat.le_zero.mp hfuel)
    simpa [decodeLinkFrom?] using hnil
  | succ fuel ih =>
    obtain - | ⟨c, cs⟩ := cs
    · simpa [decodeLinkFrom?] using hnil
    have hshorter {w rest out : List Char} (heq : c :: cs = w ++ rest) (hpiece : Piece kept true w out) :
        rest.length ≤ fuel := by
      have hpos := List.length_pos_iff.mpr hpiece.ne_nil
      have hlen := congrArg List.length heq
      simp only [List.length_cons, List.length_append] at hfuel hlen
      omega
    constructor
    · intro h
      obtain ⟨⟨out, rest⟩, hfirst, h⟩ := Option.bind_eq_some_iff.mp h
      obtain ⟨w, heq, hpiece⟩ := readLinkChar?_eq_some_iff.mp hfirst
      obtain ⟨u, rfl, hu⟩ := (ih (hshorter heq hpiece) (by simp [reads_nil_iff, eq_comm])).mp h
      exact ⟨out ++ u, by simp, heq ▸ .cons hpiece hu⟩
    · rintro ⟨u, rfl, hu⟩
      obtain ⟨h, -⟩ | ⟨w, out, rest, u', heq, rfl, hpiece, hrest⟩ := hu.inv
      · cases h
      refine Option.bind_eq_some_iff.mpr ⟨_, readLinkChar?_eq_some_iff.mpr ⟨w, heq, hpiece⟩, ?_⟩
      refine (ih (hshorter heq hpiece) (by simp [reads_nil_iff])).mpr ⟨u', by simp, hrest⟩

/-- The reader gives a text exactly when the link stands for it. -/
theorem decodeLink?_eq_some_iff {s t : String} :
    decodeLink? kept s = some t ↔ Reads kept true s.toList t.toList := by
  have hread : decodeLinkFrom? kept s.length s.toList [] = some t.toList ↔ Reads kept true s.toList t.toList := by
    rw [decodeLinkFrom?_eq_some_iff (Nat.le_of_eq String.length_toList)]
    simp
  rw [← hread, decodeLink?, Option.map_eq_some_iff]
  constructor
  · rintro ⟨cs, hcs, rfl⟩
    rw [hcs, String.toList_ofList]
  · exact fun h => ⟨_, h, String.ofList_toList⟩

/-! ## 4. Links without signs -/

/-- No plus sign follows a percent sign. -/
def Unsigned (cs : List Char) : Prop :=
  ¬ ['%', '+'] <:+: cs

theorem unsigned_cons (hc : c ≠ '%') : Unsigned (c :: cs) ↔ Unsigned cs := by
  simp [Unsigned, List.infix_cons_iff, List.cons_prefix_cons, hc.symm]

theorem ne_percent_of_digitOf? (h : Number.digitOf? 16 a = some n) : a ≠ '%' := by
  rintro rfl
  cases h

theorem isByte_false_iff : IsByte false a b n ↔ IsByte true a b n ∧ a ≠ '+' := by
  constructor
  · rintro ⟨low, hlow, ⟨h, -⟩ | ⟨high, hhigh, hn⟩⟩
    · cases h
    · exact ⟨⟨low, hlow, .inr ⟨high, hhigh, hn⟩⟩, by rintro rfl; cases hhigh⟩
  · rintro ⟨⟨low, hlow, ⟨-, rfl, -⟩ | h⟩, ha⟩
    · exact absurd rfl ha
    · exact ⟨low, hlow, .inr h⟩

theorem unsigned_escape (h : IsByte true a b n) :
    Unsigned ('%' :: a :: b :: cs) ↔ IsByte false a b n ∧ Unsigned cs := by
  obtain ⟨ha, hb⟩ : a ≠ '%' ∧ b ≠ '%' := by
    obtain ⟨low, hlow, ⟨-, rfl, -⟩ | ⟨high, hhigh, -⟩⟩ := h
    · exact ⟨by decide, ne_percent_of_digitOf? hlow⟩
    · exact ⟨ne_percent_of_digitOf? hhigh, ne_percent_of_digitOf? hlow⟩
  have hrest : Unsigned (a :: b :: cs) ↔ Unsigned cs := (unsigned_cons ha).trans (unsigned_cons hb)
  have hfront : Unsigned ('%' :: a :: b :: cs) ↔ a ≠ '+' ∧ Unsigned (a :: b :: cs) := by
    rw [Unsigned, List.infix_cons_iff]
    simp [Unsigned, List.cons_prefix_cons, eq_comm]
  rw [hfront, hrest, isByte_false_iff, and_iff_right h]

theorem Escapes.weaken (h : Escapes false ns cs) : Escapes true ns cs := by
  induction h with
  | nil => exact .nil
  | cons hbyte _ ih => exact .cons (isByte_false_iff.mp hbyte).1 ih

theorem Escapes.unsigned_iff (h : Escapes true ns w) :
    Unsigned (w ++ s) ↔ Escapes false ns w ∧ Unsigned s := by
  induction h with
  | nil => simp [Escapes.nil]
  | @cons n ns a b cs hbyte _ ih =>
    simp only [List.cons_append, unsigned_escape hbyte, ih]
    constructor
    · rintro ⟨hplain, hrest, hs⟩
      exact ⟨.cons hplain hrest, hs⟩
    · rintro ⟨_ | ⟨hplain, hrest⟩, hs⟩
      exact ⟨hplain, hrest, hs⟩

theorem Piece.of_unsigned (h : Piece kept true w out) (hs : Unsigned (w ++ s)) :
    Piece kept false w out ∧ Unsigned s := by
  cases h with
  | plain hc => exact ⟨.plain hc, (unsigned_cons hc).mp hs⟩
  | keeps hascii hkept hcs =>
    have ⟨hcs, hs⟩ := hcs.unsigned_iff.mp hs
    exact ⟨.keeps hascii hkept hcs, hs⟩
  | group hfree hcs =>
    have ⟨hcs, hs⟩ := hcs.unsigned_iff.mp hs
    exact ⟨.group hfree hcs, hs⟩

theorem Piece.weaken (h : Piece kept false w out) (hs : Unsigned s) :
    Piece kept true w out ∧ Unsigned (w ++ s) := by
  cases h with
  | plain hc => exact ⟨.plain hc, (unsigned_cons hc).mpr hs⟩
  | keeps hascii hkept hcs => exact ⟨.keeps hascii hkept hcs.weaken, hcs.weaken.unsigned_iff.mpr ⟨hcs, hs⟩⟩
  | group hfree hcs => exact ⟨.group hfree hcs.weaken, hcs.weaken.unsigned_iff.mpr ⟨hcs, hs⟩⟩

/-- What the two grammars have apart is a plus sign after a percent sign. -/
theorem reads_false_iff : Reads kept false s t ↔ Reads kept true s t ∧ Unsigned s := by
  constructor
  · intro h
    induction h with
    | nil => exact ⟨.nil, by simp [Unsigned]⟩
    | cons hpiece _ ih =>
      have ⟨hpiece, hs⟩ := hpiece.weaken ih.2
      exact ⟨.cons hpiece ih.1, hs⟩
  · rintro ⟨h, hs⟩
    induction h with
    | nil => exact .nil
    | cons hpiece _ ih =>
      have ⟨hpiece, hs⟩ := hpiece.of_unsigned hs
      exact .cons hpiece (ih hs)

/-- The reader accepts the links of the grammar and gives what they stand for. Of the texts in which a plus sign
follows a percent sign, none of which is a link, it accepts those that are links with the sign as a digit. -/
theorem decodeLink?_accepts (kept : List Char) (s t : String) :
    (decodeLink? kept s = some t ↔ Reads kept true s.toList t.toList) ∧
      (Reads kept false s.toList t.toList ↔ decodeLink? kept s = some t ∧ Unsigned s.toList) := by
  rw [decodeLink?_eq_some_iff, reads_false_iff]
  exact ⟨.rfl, .rfl⟩

example : decodeLink? [] "%+1" = some (String.singleton (Char.ofNat 1)) := by
  decide +kernel

/-! ## 5. Writing and reading back -/

theorem digitOf?_digitChar : ∀ n < 16, Number.digitOf? 16 (Nat.digitChar n).toUpper = some n := by
  decide

theorem exists_upperHex (h : n < 256) : ∃ a b, upperHex n 2 = [a, b] ∧ IsByte false a b n := by
  by_cases hn : n < 16
  · refine ⟨'0', (Nat.digitChar n).toUpper, ?_, n, digitOf?_digitChar n hn, .inr ⟨0, by decide, by omega⟩⟩
    simp [upperHex, Nat.toDigits_of_lt_base hn]
  · refine ⟨(Nat.digitChar (n / 16)).toUpper, (Nat.digitChar (n % 16)).toUpper, ?_, n % 16,
      digitOf?_digitChar _ (by omega), .inr ⟨n / 16, digitOf?_digitChar _ (by omega), by omega⟩⟩
    have hdigits : Nat.toDigits 16 n = [Nat.digitChar (n / 16), Nat.digitChar (n % 16)] := by
      rw [Nat.toDigits_of_base_le (by decide) (by omega), Nat.toDigits_of_lt_base (by omega)]
      rfl
    simp [upperHex, hdigits]

theorem escapes_upperHex (h : ∀ n ∈ ns, n < 256) :
    Escapes false ns (ns.flatMap fun n => '%' :: upperHex n 2) := by
  induction ns with
  | nil => exact .nil
  | cons n ns ih =>
    obtain ⟨hn, hns⟩ := List.forall_mem_cons.mp h
    obtain ⟨a, b, hab, hbyte⟩ := exists_upperHex hn
    simpa [hab] using Escapes.cons hbyte (ih hns)

theorem toList_eq_data (bytes : ByteArray) : bytes.toList = bytes.data.toList := by
  have hloop (i : Nat) (bs : List UInt8) :
      ByteArray.toList.loop bytes i bs = bs.reverse ++ bytes.data.toList.drop i := by
    fun_induction ByteArray.toList.loop bytes i bs with
    | case1 i bs h ih =>
      have hget : bytes.get! i = bytes.data.toList[i] := by
        rw [Array.getElem_toList]
        exact getElem!_pos bytes.data i h
      rw [ih, List.drop_eq_getElem_cons h, hget]
      simp
    | case2 i bs h => simpa using h
  exact hloop 0 []

theorem escapes_escapeBytes (c : Char) : Escapes false (utf8 c) (escapeBytes c) := by
  have hbytes : (String.ofList [c]).toUTF8.toList = String.utf8EncodeChar c := by
    rw [toList_eq_data, String.toUTF8_eq_toByteArray, String.toByteArray_ofList, List.utf8Encode_singleton,
      List.toList_data_toByteArray]
  have hescapes := escapes_upperHex (fun n => lt_of_mem_utf8 (n := n) (c := c))
  rw [escapeBytes, hbytes]
  simpa only [utf8, List.flatMap_map] using hescapes

/-- A written link stands for the text that it was written for. -/
theorem reads_encodeLink (hkept : '%' ∉ kept) (s : String) :
    Reads kept false (encodeLink kept s).toList s.toList := by
  rw [encodeLink, String.toList_ofList]
  induction s.toList with
  | nil => exact .nil
  | cons c cs ih =>
    have hpiece : Piece kept false (if isLinkPlain c || kept.contains c then [c] else escapeBytes c) [c] := by
      split
      case isTrue h =>
        have hc : c ≠ '%' := by
          rintro rfl
          rw [Bool.or_eq_true, List.contains_iff_mem] at h
          exact h.elim (by decide) hkept
        exact .plain hc
      case isFalse h => exact .group (fun _ hc => h (by simp [hc])) (escapes_escapeBytes c)
    exact Reads.cons hpiece ih

theorem decodeLink?_encodeLink (hkept : '%' ∉ kept) (s : String) :
    decodeLink? kept (encodeLink kept s) = some s :=
  decodeLink?_eq_some_iff.mpr (reads_false_iff.mp (reads_encodeLink hkept s)).1

/-- Reading undoes writing, of whole links and of their parts, also in the functions of the guest. -/
theorem decodeLink?_undoes_encodeLink (s : String) (answers : Answers) (m : Machine) :
    decodeLink? [] (encodeLink [] s) = some s ∧
      decodeLink? linkSeparators (encodeLink linkSeparators s) = some s ∧
      (do GlobalMethod.decodeURIComponent.run #[← GlobalMethod.encodeURIComponent.run #[.string s]]).run answers m =
        .ok (.string s) m ∧
      (do GlobalMethod.decodeURI.run #[← GlobalMethod.encodeURI.run #[.string s]]).run answers m =
        .ok (.string s) m := by
  have hpart : decodeLink? [] (encodeLink [] s) = some s := decodeLink?_encodeLink (by simp) s
  have hwhole : decodeLink? linkSeparators (encodeLink linkSeparators s) = some s :=
    decodeLink?_encodeLink (by decide) s
  refine ⟨hpart, hwhole, ?_, ?_⟩
  · simp [Eval.run, GlobalMethod.run.eq_def, argument, Eval.toText, hpart, Bind.bind, Pure.pure]
  · simp [Eval.run, GlobalMethod.run.eq_def, argument, Eval.toText, hwhole, Bind.bind, Pure.pure]

end GuestScript.Text

namespace GuestScript.Text

/-! ## 6. Hexadecimal digits as units -/

/-- The digit that is written for a number below sixteen. -/
def upperDigit (n : Nat) : Char :=
  (Nat.digitChar n).toUpper

/-- The unit of an ASCII character. -/
def unitOf (c : Char) : UInt16 :=
  c.toNat.toUInt16

theorem charUnits_ascii {c : Char} (h : c.toNat < 128) : charUnits c = [unitOf c] :=
  if_pos (Nat.lt_trans h (by decide))

theorem unitChar_unitOf {c : Char} (h : c.toNat < 128) : unitChar (unitOf c) = c := by
  obtain ⟨u, hu, -, -, hc⟩ | ⟨u, v, hu, -⟩ := charUnits_cases c
  · rw [charUnits_ascii h] at hu
    rw [(List.cons.inj hu).1, hc]
  · rw [charUnits_ascii h] at hu
    simp at hu

/-- A digit is ASCII, and no mark of an escape. -/
theorem upperDigit_plain : ∀ n < 16, (upperDigit n).toNat < 128 ∧ unitOf (upperDigit n) ≠ 0x75 := by
  decide

theorem digitOf?_unitChar {n : Nat} (h : n < 16) :
    Number.digitOf? 16 (unitChar (unitOf (upperDigit n))) = some n := by
  rw [unitChar_unitOf (upperDigit_plain n h).1]
  exact digitOf?_digitChar n h

/-- One more place takes one more digit. -/
theorem upperHex_succ (n w : Nat) :
    upperHex n (w + 2) = upperHex (n / 16) (w + 1) ++ [upperDigit (n % 16)] := by
  by_cases hn : n < 16
  · have hzero : n / 16 = 0 := by omega
    rw [upperHex, upperHex, hzero, Nat.toDigits_of_lt_base hn, Nat.toDigits_zero, Nat.mod_eq_of_lt hn]
    simp only [List.map_cons, List.map_nil, List.length_singleton, Nat.add_sub_cancel_right]
    rw [show w + 2 - 1 = w + 1 from rfl, List.replicate_succ']
    rfl
  · rw [upperHex, upperHex, Nat.toDigits_of_base_le (by decide) (by omega)]
    simp only [List.map_append, List.map_cons, List.map_nil, List.length_append, List.length_singleton]
    rw [Nat.add_sub_add_right _ 1, List.append_assoc]
    rfl

theorem upperHex_one {n : Nat} (h : n < 16) : upperHex n 1 = [upperDigit n] := by
  rw [upperHex, Nat.toDigits_of_lt_base h]
  rfl

theorem upperHex_two {n : Nat} (h : n < 0x100) : upperHex n 2 = [upperDigit (n / 16), upperDigit (n % 16)] := by
  rw [upperHex_succ n 0, upperHex_one (by omega)]
  rfl

theorem upperHex_four {n : Nat} (h : n < 0x10000) : upperHex n 4 =
    [upperDigit (n / 16 / 16 / 16), upperDigit (n / 16 / 16 % 16), upperDigit (n / 16 % 16), upperDigit (n % 16)] := by
  rw [upperHex_succ n 2, upperHex_succ (n / 16) 1, upperHex_two (by omega)]
  rfl

/-- Two digits are read as the number that they were written for. -/
theorem unitsHex?_two {n : Nat} (h : n < 0x100) :
    unitsHex? ((upperHex n 2).map unitOf) = some n.toUInt16 := by
  rw [upperHex_two h]
  simp [unitsHex?, digitOf?_unitChar (show n / 16 < 16 by omega), digitOf?_unitChar (show n % 16 < 16 by omega),
    Nat.div_add_mod]

/-- And so are four. -/
theorem unitsHex?_four {n : Nat} (h : n < 0x10000) :
    unitsHex? ((upperHex n 4).map unitOf) = some n.toUInt16 := by
  rw [upperHex_four h]
  simp [unitsHex?, digitOf?_unitChar (show n / 16 / 16 / 16 < 16 by omega),
    digitOf?_unitChar (show n / 16 / 16 % 16 < 16 by omega), digitOf?_unitChar (show n / 16 % 16 < 16 by omega),
    digitOf?_unitChar (show n % 16 < 16 by omega), Nat.div_add_mod]

/-! ## 7. One unit -/

variable (fuel : Nat) (rest : List UInt16)

/-- A unit that is no percent sign is read as it stands. -/
theorem unescapeFrom_plain {u : UInt16} (h : u ≠ 0x25) :
    unescapeFrom (fuel + 1) (u :: rest) = u :: unescapeFrom fuel rest := by
  simp [unescapeFrom, h]

/-- Without the mark of the long form, two digits are read. -/
theorem readUnitEscape?_short {a b : UInt16} (h : a ≠ 0x75) :
    readUnitEscape? (a :: b :: rest) = (unitsHex? [a, b]).map fun n => (n, 2) := by
  have hmark : (a == 0x75) = false := beq_eq_false_iff_ne.mpr h
  rcases rest with - | ⟨c, - | ⟨d, - | ⟨e, rest⟩⟩⟩
  · rfl
  · rfl
  · rfl
  · rw [readUnitEscape?.eq_def]
    dsimp only
    rw [hmark]
    rfl

/-- Two digits after a percent sign are not taken for the long form, whose mark is no digit. -/
theorem unescapeFrom_short {n : Nat} (h : n < 0x100) :
    unescapeFrom (fuel + 1) (0x25 :: ((upperHex n 2).map unitOf ++ rest)) = n.toUInt16 :: unescapeFrom fuel rest := by
  have hread := unitsHex?_two h
  have hmark := (upperDigit_plain (n / 16) (by omega)).2
  rw [upperHex_two h] at hread ⊢
  simp only [List.map_cons, List.map_nil, List.cons_append, List.nil_append] at hread ⊢
  rw [unescapeFrom, readUnitEscape?_short rest hmark, hread]
  rfl

/-- After the mark four digits are read. -/
theorem readUnitEscape?_long {a b c d v : UInt16} (h : unitsHex? [a, b, c, d] = some v) :
    readUnitEscape? (0x75 :: a :: b :: c :: d :: rest) = some (v, 5) := by
  rw [readUnitEscape?.eq_def]
  dsimp only
  rw [beq_self_eq_true, if_pos rfl, h]

theorem unescapeFrom_long {n : Nat} (h : n < 0x10000) :
    unescapeFrom (fuel + 1) (0x25 :: 0x75 :: ((upperHex n 4).map unitOf ++ rest)) =
      n.toUInt16 :: unescapeFrom fuel rest := by
  have hread := unitsHex?_four h
  rw [upperHex_four h] at hread ⊢
  simp only [List.map_cons, List.map_nil, List.cons_append, List.nil_append] at hread ⊢
  rw [unescapeFrom, readUnitEscape?_long rest hread]
  rfl

/-- A unit is written as a plain character or as an escape. -/
theorem escapeUnit_cases (u : UInt16) :
    (∃ c : Char, escapeUnit u = [c] ∧ c.toNat < 128 ∧ unitOf c = u ∧ u ≠ 0x25) ∨
      (u.toNat < 0x100 ∧ escapeUnit u = '%' :: upperHex u.toNat 2) ∨
      escapeUnit u = '%' :: 'u' :: upperHex u.toNat 4 := by
  unfold escapeUnit
  dsimp only
  split
  case isTrue h =>
    obtain ⟨hsmall, hplain⟩ := (Bool.and_eq_true _ _).mp h
    have hsmall : u.toNat < 0x80 := of_decide_eq_true hsmall
    have hchar : (Char.ofNat u.toNat).toNat = u.toNat := by
      rw [Char.toNat_ofNat, if_pos (.inl (by omega))]
    have hself : unitOf (Char.ofNat u.toNat) = u := by rw [unitOf, hchar, Nat.toUInt16_eq, UInt16.ofNat_toNat]
    refine .inl ⟨_, rfl, by omega, hself, ?_⟩
    rintro rfl
    exact absurd hplain (by decide)
  case isFalse =>
    split
    case isTrue h => exact .inr (.inl ⟨h, rfl⟩)
    case isFalse => exact .inr (.inr rfl)

/-- **One unit.** Whatever follows, what was written for a unit is read as that unit. -/
theorem unescapeFrom_escapeUnit (u : UInt16) :
    unescapeFrom (fuel + 1) ((escapeUnit u).map unitOf ++ rest) = u :: unescapeFrom fuel rest := by
  have hself : u.toNat.toUInt16 = u := by simp
  obtain ⟨c, hc, -, hu, hmark⟩ | ⟨h, hshort⟩ | hlong := escapeUnit_cases u
  · rw [hc, List.map_singleton, List.singleton_append, hu, unescapeFrom_plain fuel rest hmark]
  · have hread := unescapeFrom_short fuel rest h
    rw [hself] at hread
    rw [hshort]
    exact hread
  · have hread := unescapeFrom_long fuel rest u.toNat_lt
    rw [hself] at hread
    rw [hlong]
    exact hread

/-! ## 8. Whole texts -/

theorem escapeUnit_ascii (u : UInt16) : ∀ c ∈ escapeUnit u, c.toNat < 128 := by
  have hdigit {n : Nat} (h : n < 16) : (upperDigit n).toNat < 128 := (upperDigit_plain n h).1
  have hu := u.toNat_lt
  obtain ⟨c, hc, hsmall, -⟩ | ⟨h, hshort⟩ | hlong := escapeUnit_cases u
  · simpa [hc] using hsmall
  · rw [hshort, upperHex_two h]
    simp only [List.forall_mem_cons, List.not_mem_nil, false_implies, implies_true, and_true]
    exact ⟨by decide, hdigit (by omega), hdigit (by omega)⟩
  · rw [hlong, upperHex_four hu]
    simp only [List.forall_mem_cons, List.not_mem_nil, false_implies, implies_true, and_true]
    exact ⟨by decide, by decide, hdigit (by omega), hdigit (by omega), hdigit (by omega), hdigit (by omega)⟩

theorem escapeUnit_ne_nil (u : UInt16) : escapeUnit u ≠ [] := by
  obtain ⟨c, hc, -⟩ | ⟨-, h⟩ | h := escapeUnit_cases u
  · simp [hc]
  · simp [h]
  · simp [h]

/-- All units of a text, read one by one. -/
theorem unescapeFrom_escaped : ∀ (us : List UInt16) (fuel : Nat), us.length ≤ fuel →
    unescapeFrom fuel (us.flatMap fun u => (escapeUnit u).map unitOf) = us
  | [], fuel, _ => by cases fuel <;> rfl
  | _ :: _, 0, h => absurd h (Nat.not_succ_le_zero _)
  | u :: us, fuel + 1, h => by
    rw [List.flatMap_cons, unescapeFrom_escapeUnit, unescapeFrom_escaped us fuel (Nat.le_of_succ_le_succ h)]

theorem units_escapeUnits (s : String) :
    (units (escapeUnits s)).toList = (units s).toList.flatMap fun u => (escapeUnit u).map unitOf := by
  rw [toList_units, escapeUnits, String.toList_ofList, List.flatMap_assoc]
  refine List.flatMap_congr fun u _ => ?_
  rw [List.map_eq_flatMap]
  exact List.flatMap_congr fun c hc => charUnits_ascii (escapeUnit_ascii u c hc)

theorem ofUnits_units (s : String) : ofUnits (units s).toList = s := by
  rw [ofUnits, toList_units, decode_flatMap, String.ofList_toList]

/-- **Reading undoes writing**, of texts and in the functions of the guest. -/
theorem unescape_escape (s : String) (answers : Answers) (m : Machine) :
    unescapeUnits (escapeUnits s) = s ∧
      (do GlobalMethod.unescape.run #[← GlobalMethod.escape.run #[.string s]]).run answers m = .ok (.string s) m := by
  have hread : unescapeUnits (escapeUnits s) = s := by
    have hlength : (units s).toList.length ≤ (units (escapeUnits s)).size := by
      rw [← Array.length_toList, units_escapeUnits, List.length_flatMap]
      refine le_of_eq_of_le (by simp) (List.length_le_sum_of_one_le _ fun n hn => ?_)
      obtain ⟨u, -, rfl⟩ := List.mem_map.mp hn
      rw [List.length_map]
      exact List.length_pos_of_ne_nil (escapeUnit_ne_nil u)
    rw [unescapeUnits, units_escapeUnits, unescapeFrom_escaped _ _ hlength, ofUnits_units]
  refine ⟨hread, ?_⟩
  simp [Eval.run, GlobalMethod.run.eq_def, argument, Eval.toText, hread, Bind.bind, Pure.pure]

end GuestScript.Text
