import GrammarLoader.Proofs.Layout.History
import Mathlib.Algebra.Group.Nat.Even

/-! Bytes of any origin that are restored and then written again. They come back in a normal form,
which is all that a scanner keeps of them, so two snapshots in normal form that are restored to the
same scanner are the same. -/

namespace GrammarLoader.Layout.Scanner

/-- The bytes up to the 1024th, without a last one that is left over in pairs, and with a flag that is
zero or one. Of fewer than two bytes nothing is kept, and those of the initial scanner take their
place. -/
def normalize (bytes : List UInt8) : List UInt8 :=
  if bytes.length < 2 then [0, 0]
  else
    let kept := bytes.take 1024
    (kept.take (kept.length / 2 * 2)).modify 1 fun flag => if flag = 0 then 0 else 1

/-- Bytes in pairs that fit into a snapshot, with a flag that is zero or one. -/
structure IsNormal (bytes : List UInt8) : Prop where
  even : Even bytes.length
  fits : bytes.length ≤ 1024
  flag : bytes[1]? = some 0 ∨ bytes[1]? = some 1

theorem toNat_widthOfBytes (low high : UInt8) :
    (widthOfBytes low high).toNat = low.toNat + 256 * high.toNat := by
  have hlow := low.toNat_lt
  have hhigh := high.toNat_lt
  have hshift : high.toNat <<< 8 % 2 ^ 16 = high.toNat <<< 8 := by
    rw [Nat.shiftLeft_eq]
    omega
  calc (widthOfBytes low high).toNat
      = low.toNat ||| high.toNat <<< 8 % 2 ^ 16 := by simp [widthOfBytes]
    _ = high.toNat <<< 8 + low.toNat := by
        rw [hshift, Nat.or_comm, Nat.shiftLeft_add_eq_or_of_lt hlow]
    _ = low.toNat + 256 * high.toNat := by
        rw [Nat.shiftLeft_eq]
        omega

theorem widthBytes_widthOfBytes (low high : UInt8) :
    widthBytes (widthOfBytes low high) = [low, high] := by
  have hlow := low.toNat_lt
  have hhigh := high.toNat_lt
  have hfirst : (widthOfBytes low high).toUInt8 = low := by
    apply UInt8.toNat_inj.1
    rw [UInt16.toNat_toUInt8, toNat_widthOfBytes]
    omega
  have hshift : (widthOfBytes low high >>> 8).toNat = high.toNat := by
    rw [UInt16.toNat_shiftRight, toNat_widthOfBytes, Nat.shiftRight_eq_div_pow,
      show (8 : UInt16).toNat % 16 = 8 from rfl]
    omega
  have hsecond : (widthOfBytes low high >>> 8).toUInt8 = high := by
    apply UInt8.toNat_inj.1
    rw [UInt16.toNat_toUInt8, hshift]
    omega
  rw [widthBytes, hfirst, hsecond]

theorem flatMap_widthsOfBytes (bytes : List UInt8) :
    (widthsOfBytes bytes).flatMap widthBytes = bytes.take (bytes.length / 2 * 2) := by
  fun_induction widthsOfBytes bytes with
  | case1 low high rest ih =>
    have hlen : (low :: high :: rest).length / 2 * 2 = rest.length / 2 * 2 + 2 := by
      simp only [List.length_cons]
      omega
    rw [List.flatMap_cons, widthBytes_widthOfBytes, ih, hlen]
    rfl
  | case2 bytes h =>
    match bytes with
    | [] => rfl
    | [_] => simp
    | low :: high :: rest => exact absurd rfl (h low high rest)

theorem length_widthsOfBytes (bytes : List UInt8) :
    (widthsOfBytes bytes).length = bytes.length / 2 := by
  have hlen := congrArg List.length (flatMap_widthsOfBytes bytes)
  rw [length_flatMap_widthBytes, List.length_take] at hlen
  omega

theorem normalize_cons_cons (pending flag : UInt8) (widths : List UInt8) :
    normalize (pending :: flag :: widths) =
      pending :: (if flag = 0 then 0 else 1) ::
        (widths.take 1022).take ((widths.take 1022).length / 2 * 2) := by
  have hlong : ¬(pending :: flag :: widths).length < 2 := by simp
  have hlen : (pending :: flag :: widths.take 1022).length / 2 * 2 =
      (widths.take 1022).length / 2 * 2 + 2 := by
    simp only [List.length_cons]
    omega
  rw [normalize, if_neg hlong]
  dsimp only [List.take_succ_cons]
  rw [hlen]
  rfl

theorem deserialize_cons_cons (pending flag : UInt8) (widths : List UInt8) :
    deserialize (pending :: flag :: widths) =
      ⟨(widthsOfBytes (widths.take 1022)).reverse, pending.toUInt16, flag != 0⟩ := rfl

theorem serialize_deserialize (bytes : List UInt8) :
    (deserialize bytes).serialize 1024 = normalize bytes := by
  match bytes with
  | [] => rfl
  | [_] => rfl
  | pending :: flag :: widths =>
    have hpending : UInt8.ofNat (min 255 pending.toUInt16.toNat) = pending := by
      rw [UInt8.toNat_toUInt16, Nat.min_eq_right (Nat.le_of_lt_succ pending.toNat_lt),
        UInt8.ofNat_toNat]
    have hflag : (flag != 0).toUInt8 = if flag = 0 then 0 else 1 := by
      by_cases h : flag = 0
      · rw [if_pos h, h]
        rfl
      · rw [if_neg h, bne_iff_ne.2 h]
        rfl
    have hroom : (widthsOfBytes (widths.take 1022)).length ≤ room 1024 := by
      rw [length_widthsOfBytes, List.length_take]
      unfold room
      omega
    rw [serialize_of_le _ (by decide), deserialize_cons_cons, normalize_cons_cons]
    dsimp only
    rw [hpending, hflag, List.reverse_reverse, List.take_of_length_le hroom, flatMap_widthsOfBytes]

theorem isNormal_normalize (bytes : List UInt8) : IsNormal (normalize bytes) := by
  match bytes with
  | [] | [_] => exact (⟨by decide, by decide, .inl rfl⟩ : IsNormal [0, 0])
  | pending :: flag :: widths =>
    rw [normalize_cons_cons]
    refine ⟨?_, ?_, ?_⟩
    · rw [List.length_cons, List.length_cons, List.length_take, Nat.even_iff]
      omega
    · rw [List.length_cons, List.length_cons, List.length_take, List.length_take]
      omega
    · by_cases h : flag = 0
      · exact .inl (congrArg some (if_pos h))
      · exact .inr (congrArg some (if_neg h))

theorem normalize_eq_self_iff {bytes : List UInt8} : normalize bytes = bytes ↔ IsNormal bytes := by
  constructor
  · intro h
    rw [← h]
    exact isNormal_normalize bytes
  · rintro ⟨heven, hfits, hflag⟩
    match bytes with
    | [] | [_] => simp at hflag
    | pending :: flag :: widths =>
      rw [List.length_cons, List.length_cons] at heven hfits
      have hall : widths.take 1022 = widths := List.take_of_length_le (by omega)
      have hpairs : widths.length / 2 * 2 = widths.length := by
        have := Nat.even_iff.1 heven
        omega
      have hbit : (if flag = 0 then 0 else 1) = flag := by
        rcases hflag with h | h
        · obtain rfl := Option.some.inj h
          rfl
        · obtain rfl := Option.some.inj h
          rfl
      rw [normalize_cons_cons, hall, hpairs, hbit, List.take_length]

theorem written_deserialize (bytes : List UInt8) {buffer : List UInt8} (h : buffer.length = 1024) :
    (deserialize bytes).written buffer = normalize bytes := by
  rw [written_eq, h, serialize_deserialize]

/-- Whatever bytes a scanner is restored from, their normal form is written back. So restoring keeps
snapshots in normal form apart, and what has been restored and written once stays as it is. -/
theorem written_load (past : List Scanner) {buffer : List UInt8} (h : buffer.length = 1024) :
    (∀ bytes, (after past (.load bytes)).written buffer = normalize bytes) ∧
    (∀ bytes others, IsNormal bytes → IsNormal others →
      after past (.load bytes) = after past (.load others) → bytes = others) ∧
    ∀ bytes, (after past (.load ((after past (.load bytes)).written buffer))).written buffer =
      (after past (.load bytes)).written buffer := by
  have hwritten (bytes : List UInt8) : (after past (.load bytes)).written buffer = normalize bytes :=
    written_deserialize bytes h
  refine ⟨hwritten, fun bytes others hbytes hothers hsame => ?_, fun bytes => ?_⟩
  · rw [← normalize_eq_self_iff.2 hbytes, ← normalize_eq_self_iff.2 hothers, ← hwritten, ← hwritten,
      hsame]
  · rw [hwritten, hwritten]
    exact normalize_eq_self_iff.2 (isNormal_normalize bytes)

/-- Of more bytes than a snapshot has, the first 1024 come back, with the flag as it is written. Two
snapshots that differ in nothing but the flag are restored to different scanners. -/
theorem written_load_oversized :
    (List.replicate 1024 (170 : UInt8)).length = 1024 ∧
      (after [] (.load (List.replicate 1027 7))).written (List.replicate 1024 170) =
        7 :: 1 :: List.replicate 1022 7 ∧
      IsNormal [3, 0, 8, 0] ∧ IsNormal [3, 1, 8, 0] ∧
      after [] (.load [3, 0, 8, 0]) ≠ after [] (.load [3, 1, 8, 0]) := by
  have h : (List.replicate 1024 (170 : UInt8)).length = 1024 := List.length_replicate
  have hunset : IsNormal [3, 0, 8, 0] := ⟨by decide, by decide, .inl rfl⟩
  have hset : IsNormal [3, 1, 8, 0] := ⟨by decide, by decide, .inr rfl⟩
  obtain ⟨hwritten, hinjective, -⟩ := written_load [] h
  refine ⟨h, ?_, hunset, hset, fun hsame => ?_⟩
  · rw [hwritten]
    decide +kernel
  · exact absurd (hinjective _ _ hunset hset hsame) (by decide)

end GrammarLoader.Layout.Scanner
