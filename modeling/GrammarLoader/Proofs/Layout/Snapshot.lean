import GrammarLoader.Layout.Snapshot

/-! A snapshot and the scanner that is restored from it. The flag survives, up to 255 of the pending
tokens do, and of the stack of widths it is the longest part from the base up that fits. -/

namespace GrammarLoader.Layout.Scanner

theorem widthOfBytes_widthBytes (w : UInt16) : widthOfBytes w.toUInt8 (w >>> 8).toUInt8 = w := by
  have hw : w.toNat < 65536 := w.toNat_lt
  have hlow : w.toNat % 2 ^ 8 < 2 ^ 8 := Nat.mod_lt _ (by decide)
  have hhigh : w.toNat >>> 8 % 2 ^ 8 = w.toNat >>> 8 := by
    rw [Nat.shiftRight_eq_div_pow]
    omega
  have hsum : w.toNat >>> 8 <<< 8 + w.toNat % 2 ^ 8 = w.toNat := by
    rw [Nat.shiftRight_eq_div_pow, Nat.shiftLeft_eq]
    omega
  apply UInt16.toNat_inj.1
  calc (widthOfBytes w.toUInt8 (w >>> 8).toUInt8).toNat
      = w.toNat % 2 ^ 8 ||| (w.toNat >>> 8 % 2 ^ 8) <<< 8 % 2 ^ 16 := by simp [widthOfBytes]
    _ = w.toNat >>> 8 <<< 8 ||| w.toNat % 2 ^ 8 := by
        rw [hhigh, Nat.or_comm, Nat.mod_eq_of_lt (by omega)]
    _ = w.toNat := by rw [← Nat.shiftLeft_add_eq_or_of_lt hlow, hsum]

theorem widthsOfBytes_flatMap (ws : List UInt16) : widthsOfBytes (ws.flatMap widthBytes) = ws := by
  induction ws with
  | nil => rfl
  | cons w ws ih =>
    rw [List.flatMap_cons]
    change widthOfBytes w.toUInt8 (w >>> 8).toUInt8 :: widthsOfBytes (ws.flatMap widthBytes) = _
    rw [widthOfBytes_widthBytes, ih]

theorem length_flatMap_widthBytes (ws : List UInt16) :
    (ws.flatMap widthBytes).length = 2 * ws.length := by
  induction ws with
  | nil => rfl
  | cons w ws ih =>
    rw [List.flatMap_cons, List.length_append, ih, List.length_cons]
    change 2 + 2 * ws.length = _
    omega

/-- The number of blocks whose widths fit into `size` bytes. -/
def room (size : Nat) : Nat := (min size 1024 - 2) / 2

variable (s : Scanner)

theorem serialize_of_lt {size : Nat} (h : size < 2) : s.serialize size = [] := by
  have hm : min size maxSnapshot < 2 := Nat.lt_of_le_of_lt (Nat.min_le_left _ _) h
  rw [serialize, if_pos hm]

theorem serialize_of_le {size : Nat} (h : 2 ≤ size) :
    s.serialize size =
      UInt8.ofNat (min 255 s.pending.toNat) :: s.finalNewline.toUInt8 ::
        (s.levels.reverse.take (room size)).flatMap widthBytes := by
  have hm : ¬min size maxSnapshot < 2 := Nat.not_lt.2 (Nat.le_min.2 ⟨h, by decide⟩)
  rw [serialize, if_neg hm]
  rfl

theorem length_serialize (size : Nat) :
    (s.serialize size).length = if size < 2 then 0 else 2 + 2 * min s.depth (room size) := by
  split
  · next h =>
    rw [serialize_of_lt s h]
    rfl
  · next h =>
    rw [serialize_of_le s (Nat.not_lt.1 h), List.length_cons, List.length_cons,
      length_flatMap_widthBytes, List.length_take, List.length_reverse, Nat.min_comm, depth]
    omega

theorem length_serialize_le (size : Nat) : (s.serialize size).length ≤ min size 1024 := by
  rw [length_serialize]
  unfold room
  split <;> omega

/-- The scanner as far as a snapshot of `size` bytes holds it. -/
def cut (size : Nat) : Scanner :=
  if size < 2 then initial
  else ⟨(s.levels.reverse.take (room size)).reverse,
    (UInt8.ofNat (min 255 s.pending.toNat)).toUInt16, s.finalNewline⟩

theorem deserialize_serialize (size : Nat) : deserialize (s.serialize size) = s.cut size := by
  have hall : (s.serialize size).take maxSnapshot = s.serialize size :=
    List.take_of_length_le (Nat.le_trans (length_serialize_le s size) (Nat.min_le_right _ _))
  unfold deserialize
  rw [hall]
  by_cases h : size < 2
  · rw [serialize_of_lt s h, cut, if_pos h]
  · have hflag : (s.finalNewline.toUInt8 != 0) = s.finalNewline := by
      cases s.finalNewline <;> rfl
    rw [serialize_of_le s (Nat.not_lt.1 h), cut, if_neg h]
    simp only [widthsOfBytes_flatMap, hflag]

theorem toNat_saturated (n : Nat) : (UInt8.ofNat (min 255 n)).toUInt16.toNat = min 255 n := by
  have hlt : min 255 n < 256 := Nat.lt_of_le_of_lt (Nat.min_le_left _ _) (by decide)
  rw [UInt8.toNat_toUInt16, UInt8.toNat_ofNat_of_lt' hlt]

theorem pending_cut {size : Nat} (h : 2 ≤ size) :
    (s.cut size).pending.toNat = min 255 s.pending.toNat := by
  rw [cut, if_neg (Nat.not_lt.2 h), toNat_saturated]

theorem finalNewline_cut {size : Nat} (h : 2 ≤ size) :
    (s.cut size).finalNewline = s.finalNewline := by
  rw [cut, if_neg (Nat.not_lt.2 h)]

theorem widths_cut {size : Nat} (h : 2 ≤ size) :
    (s.cut size).widths = s.widths.take (1 + room size) := by
  rw [cut, if_neg (Nat.not_lt.2 h), widths, widths, Nat.add_comm, List.take_succ_cons,
    List.reverse_reverse]

theorem levels_cut_suffix (size : Nat) : (s.cut size).levels <:+ s.levels := by
  unfold cut
  split
  · exact List.nil_suffix
  · have hp := List.take_prefix (room size) s.levels.reverse
    rwa [← List.reverse_suffix, List.reverse_reverse] at hp

/-- `t` is `s` as far as `size` bytes hold it. A block takes two bytes and so do the pending tokens
and the flag, while the base of the stack takes none. -/
structure Restores (t s : Scanner) (size : Nat) : Prop where
  finalNewline : t.finalNewline = s.finalNewline
  pending : t.pending.toNat = min 255 s.pending.toNat
  widths : t.widths <+: s.widths
  fits : 2 * t.widths.length ≤ min size 1024
  longest : ∀ stack, stack <+: s.widths → 2 * stack.length ≤ min size 1024 → stack <+: t.widths

theorem restores_cut {size : Nat} (h : 2 ≤ size) : (s.cut size).Restores s size := by
  -- The first two bytes make up for the base, which takes none.
  have htwo : 2 * (1 + room size) ≤ min size 1024 ∧ min size 1024 < 2 * (1 + room size) + 2 := by
    unfold room
    omega
  refine ⟨finalNewline_cut s h, pending_cut s h, ?_, ?_, fun stack hstack hfits => ?_⟩
  · rw [widths_cut s h]
    exact List.take_prefix _ _
  · rw [widths_cut s h, List.length_take]
    omega
  · rw [widths_cut s h]
    exact List.prefix_take_iff.2 ⟨hstack, by omega⟩

/-- Nothing is lost if every block has room and every pending token is counted. -/
theorem cut_eq_self_iff {size : Nat} (h : 2 ≤ size) :
    s.cut size = s ↔ s.depth ≤ room size ∧ s.pending.toNat ≤ 255 := by
  constructor
  · intro hs
    have hp := pending_cut s h
    have hw := widths_cut s h
    rw [hs] at hp hw
    have hlen := congrArg List.length hw
    rw [List.length_take] at hlen
    unfold widths at hlen
    rw [List.length_cons, List.length_reverse] at hlen
    unfold depth
    omega
  · rintro ⟨hd, h255⟩
    have hlevels : s.levels.reverse.take (room size) = s.levels.reverse :=
      List.take_of_length_le (by rwa [List.length_reverse])
    have hpending : (UInt8.ofNat (min 255 s.pending.toNat)).toUInt16 = s.pending := by
      apply UInt16.toNat_inj.1
      rw [toNat_saturated, Nat.min_eq_right h255]
    rw [cut, if_neg (Nat.not_lt.2 h), hpending, hlevels, List.reverse_reverse]

def written (buffer : List UInt8) : List UInt8 :=
  (s.writeTo buffer).2.take (s.writeTo buffer).1

theorem written_eq (buffer : List UInt8) : s.written buffer = s.serialize buffer.length :=
  List.take_left

/-- A snapshot writes as much as fits and nothing behind it, and is restored to what it holds. -/
theorem snapshot_exact (s : Scanner) (buffer : List UInt8) :
    (s.writeTo buffer).1 = (if buffer.length < 2 then 0
      else 2 + 2 * min s.depth ((min buffer.length 1024 - 2) / 2)) ∧
    (s.writeTo buffer).2.length = buffer.length ∧
    (∀ i, (s.writeTo buffer).1 ≤ i → (s.writeTo buffer).2[i]? = buffer[i]?) ∧
    (if buffer.length < 2 then deserialize (s.written buffer) = initial
      else (deserialize (s.written buffer)).Restores s buffer.length) ∧
    ∀ full : List UInt8, full.length = 1024 →
      (deserialize (s.written full) = s ↔ s.depth ≤ 511 ∧ s.pending.toNat ≤ 255) := by
  have hle := Nat.le_trans (length_serialize_le s buffer.length) (Nat.min_le_left _ _)
  refine ⟨length_serialize s buffer.length, ?_, fun i hi => ?_, ?_, fun full hfull => ?_⟩
  · change (s.serialize buffer.length ++ buffer.drop (s.serialize buffer.length).length).length = _
    rw [List.length_append, List.length_drop]
    omega
  · change (s.serialize buffer.length).length ≤ i at hi
    change (s.serialize buffer.length ++ buffer.drop (s.serialize buffer.length).length)[i]? = _
    rw [List.getElem?_append_right hi, List.getElem?_drop]
    congr 1
    omega
  · rw [written_eq, deserialize_serialize]
    split
    · next h => rw [cut, if_pos h]
    · next h => exact restores_cut s (Nat.not_lt.1 h)
  · rw [written_eq, deserialize_serialize, hfull]
    exact cut_eq_self_iff s (by decide)

end GrammarLoader.Layout.Scanner
