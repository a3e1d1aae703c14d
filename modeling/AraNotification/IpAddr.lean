import AraNotification.Lib.Digits
import AraNotification.Lib.Separator

/-! # Addresses of clients and their text

`IpAddr` of the standard library with its `Display`: four decimal octets for IPv4, colon-separated
hexadecimal segments for IPv6, where the first of the longest runs of zero segments is left out
when it has more than one, and an IPv4-mapped address shows its octets.

Two addresses have different texts (`IpAddr.toString_inj`). -/

namespace AraNotification

/-- `Ipv4Addr`. -/
structure Ipv4Addr where
  a : UInt8
  b : UInt8
  c : UInt8
  d : UInt8
deriving DecidableEq, Repr

/-- `Ipv6Addr`. -/
structure Ipv6Addr where
  segments : List UInt16
  length_eq : segments.length = 8
deriving DecidableEq, Repr

/-- `IpAddr`. -/
inductive IpAddr where
  | v4 (addr : Ipv4Addr)
  | v6 (addr : Ipv6Addr)
deriving DecidableEq, Repr

namespace Ipv4Addr

/-- The octets in decimal. -/
def parts (ip : Ipv4Addr) : List (List Char) :=
  [ip.a, ip.b, ip.c, ip.d].map (fun octet => Nat.toDigits 10 octet.toNat)

/-- The characters of the text. -/
def display (ip : Ipv4Addr) : List Char := ['.'].intercalate ip.parts

end Ipv4Addr

namespace Ipv6Addr

/-- A range of segments. -/
structure Span where
  start : ℕ
  len : ℕ

/-- The current run with one more zero, at index `i`. -/
def Span.extend (current : Span) (i : ℕ) : Span where
  start := if current.len = 0 then i else current.start
  len := current.len + 1

/-- The loop that finds the first of the longest runs of zeros; `i` is the index of the next
segment. -/
def findZeroes : List UInt16 → ℕ → Span → Span → Span
  | [], _, _, longest => longest
  | segment :: rest, i, current, longest =>
      if segment = 0 then
        findZeroes rest (i + 1) (current.extend i)
          (if (current.extend i).len > longest.len then current.extend i else longest)
      else findZeroes rest (i + 1) ⟨0, 0⟩ longest

/-- The first of the longest runs of zero segments. -/
def zeroes (ip : Ipv6Addr) : Span := findZeroes ip.segments 0 ⟨0, 0⟩ ⟨0, 0⟩

/-- `to_ipv4_mapped`. -/
def toIpv4Mapped (ip : Ipv6Addr) : Option Ipv4Addr :=
  match ip.segments with
  | [0, 0, 0, 0, 0, 0xffff, ab, cd] =>
      some ⟨(ab >>> 8).toUInt8, ab.toUInt8, (cd >>> 8).toUInt8, cd.toUInt8⟩
  | _ => none

/-- The segments in hexadecimal. -/
def parts (segments : List UInt16) : List (List Char) :=
  segments.map (fun segment => Nat.toDigits 16 segment.toNat)

/-- `fmt_subslice`: the colon-separated segments. -/
def fmtSubslice (segments : List UInt16) : List Char := [':'].intercalate (parts segments)

/-- The characters of the text. -/
def display (ip : Ipv6Addr) : List Char :=
  match ip.toIpv4Mapped with
  | some ipv4 => [':', ':', 'f', 'f', 'f', 'f', ':'] ++ ipv4.display
  | none =>
      if ip.zeroes.len > 1 then
        fmtSubslice (ip.segments.take ip.zeroes.start) ++
          ':' :: ':' :: fmtSubslice (ip.segments.drop (ip.zeroes.start + ip.zeroes.len))
      else fmtSubslice ip.segments

end Ipv6Addr

/-- `to_string`. -/
def IpAddr.toString : IpAddr → String
  | v4 addr => String.ofList addr.display
  | v6 addr => String.ofList addr.display

/-- The first of the longest runs of zeros is left out. -/
example : IpAddr.toString (.v6 ⟨[0x2001, 0xdb8, 0, 0, 1, 0, 0, 1], rfl⟩) = "2001:db8::1:0:0:1" := by decide

/-! ### Different addresses have different texts -/

open Separator

/-- A separator that is no digit. -/
def IsSeparator (c : Char) : Prop := ∀ d < 16, d.digitChar ≠ c

theorem isSeparator_dot : IsSeparator '.' := by
  unfold IsSeparator
  decide

theorem isSeparator_colon : IsSeparator ':' := by
  unfold IsSeparator
  decide

section parts
variable {β : Type} {f : β → ℕ} {b : ℕ} {c : Char}

/-- Numbers in digits can be joined by a separator. -/
theorem parts_toDigits (hb : 1 < b) (hb' : b ≤ 16) (hc : IsSeparator c) (l : List β) :
    Parts c (l.map (fun x => Nat.toDigits b (f x))) := by
  intro p hp
  obtain ⟨x, -, rfl⟩ := List.mem_map.mp hp
  exact ⟨Nat.toDigits_ne_nil, Digits.not_mem_toDigits hb (fun d hd => hc d (by omega)) _⟩

theorem map_toDigits_inj (hb : 1 < b) (hb' : b ≤ 16) (hf : Function.Injective f) {l l' : List β}
    (h : l.map (fun x => Nat.toDigits b (f x)) = l'.map (fun x => Nat.toDigits b (f x))) : l = l' :=
  List.map_injective_iff.mpr (fun _ _ hx => hf (Digits.toDigits_inj hb hb' hx)) h

/-- Another separator does not occur between joined numbers. -/
theorem not_mem_intercalate {e : Char} (hb : 1 < b) (hb' : b ≤ 16) (he : IsSeparator e) (hec : e ≠ c)
    (l : List β) : e ∉ [c].intercalate (l.map (fun x => Nat.toDigits b (f x))) := by
  induction l with
  | nil => simp [List.intercalate_nil]
  | cons x l ih =>
      have hx : e ∉ Nat.toDigits b (f x) := Digits.not_mem_toDigits hb (fun d hd => he d (by omega)) _
      cases l with
      | nil => simpa [List.intercalate_singleton] using hx
      | cons y l =>
          rw [List.map_cons, List.map_cons, List.intercalate_cons_cons]
          simp only [List.mem_append, List.mem_singleton, not_or]
          exact ⟨⟨hx, hec⟩, ih⟩

end parts

namespace Ipv4Addr

theorem display_inj {ip ip' : Ipv4Addr} (h : ip.display = ip'.display) : ip = ip' := by
  have hparts := intercalate_inj (parts_toDigits (by decide) (by decide) isSeparator_dot _)
    (parts_toDigits (by decide) (by decide) isSeparator_dot _) h
  have hlist := map_toDigits_inj (by decide) (by decide) (fun _ _ => UInt8.toNat_inj.mp) hparts
  cases ip
  cases ip'
  simpa using hlist

theorem dot_mem_display (ip : Ipv4Addr) : '.' ∈ ip.display := by
  simp [display, parts, List.intercalate_cons_cons]

theorem colon_not_mem_display (ip : Ipv4Addr) : ':' ∉ ip.display :=
  not_mem_intercalate (by decide) (by decide) isSeparator_colon (by decide) _

end Ipv4Addr

namespace Ipv6Addr

/-- A span of zero segments. -/
def Span.Zeroes (l : List UInt16) (span : Span) : Prop :=
  ∀ j, span.start ≤ j → j < span.start + span.len → l[j]? = some 0

theorem Span.Zeroes.extend {l : List UInt16} {current : Span} {i : ℕ} (h : current.Zeroes l)
    (hend : current.len ≠ 0 → current.start + current.len = i) (hget : l[i]? = some 0) :
    (current.extend i).Zeroes l := by
  intro j hlo hhi
  by_cases hj : j = i
  · rw [hj, hget]
  · unfold Span.extend at hlo hhi
    by_cases hlen : current.len = 0
    · simp only [hlen, if_true] at hlo hhi
      omega
    · simp only [hlen, if_false] at hlo hhi
      have := hend hlen
      exact h j hlo (by omega)

theorem Span.extend_end {current : Span} {i : ℕ} (hend : current.len ≠ 0 → current.start + current.len = i) :
    (current.extend i).start + (current.extend i).len = i + 1 := by
  unfold Span.extend
  split_ifs with hlen
  · simp [hlen]
  · have := hend hlen
    dsimp only
    omega

theorem Span.zeroes_empty {l : List UInt16} : Span.Zeroes l ⟨0, 0⟩ := fun j _ hhi => absurd hhi (by simp)

theorem zeroes_findZeroes {l : List UInt16} :
    ∀ (rest : List UInt16) (i : ℕ) (current longest : Span), l.drop i = rest →
      current.Zeroes l → (current.len ≠ 0 → current.start + current.len = i) → longest.Zeroes l →
      (findZeroes rest i current longest).Zeroes l
  | [], _, _, _, _, _, _, hlongest => hlongest
  | segment :: rest, i, current, longest, hrest, hcurrent, hend, hlongest => by
      have hget : l[i]? = some segment := by simpa [List.head?_drop] using congrArg List.head? hrest
      have hdrop : l.drop (i + 1) = rest := by simpa using congrArg List.tail hrest
      rw [findZeroes]
      by_cases hzero : segment = 0
      · have hnext := hcurrent.extend hend (hzero ▸ hget)
        rw [if_pos hzero]
        refine zeroes_findZeroes rest (i + 1) _ _ hdrop hnext (fun _ => Span.extend_end hend) ?_
        split_ifs
        · exact hnext
        · exact hlongest
      · rw [if_neg hzero]
        exact zeroes_findZeroes rest (i + 1) _ _ hdrop Span.zeroes_empty (by simp) hlongest

theorem zeroes_zeroes (ip : Ipv6Addr) : ip.zeroes.Zeroes ip.segments :=
  zeroes_findZeroes _ _ _ _ rfl Span.zeroes_empty (by simp) Span.zeroes_empty

/-- Segments are determined by those around a span of zeros. -/
theorem eq_of_around {l l' : List UInt16} {span span' : Span} (hlen : l.length = l'.length)
    (h : span.Zeroes l) (h' : span'.Zeroes l') (hpos : 0 < span.len) (hpos' : 0 < span'.len)
    (hbefore : l.take span.start = l'.take span'.start)
    (hafter : l.drop (span.start + span.len) = l'.drop (span'.start + span'.len)) : l = l' := by
  have hend : ∀ {l : List UInt16} {span : Span}, span.Zeroes l → 0 < span.len →
      span.start + span.len ≤ l.length := by
    intro l span h hpos
    have hlast := h (span.start + span.len - 1) (by omega) (by omega)
    obtain ⟨hlt, -⟩ := List.getElem?_eq_some_iff.mp hlast
    omega
  have he := hend h hpos
  have he' := hend h' hpos'
  have hstart : span.start = span'.start := by
    have := congrArg List.length hbefore
    simp only [List.length_take] at this
    omega
  have hstop : span.start + span.len = span'.start + span'.len := by
    have := congrArg List.length hafter
    simp only [List.length_drop] at this
    omega
  apply List.ext_getElem?
  intro j
  by_cases hlo : j < span.start
  · have := congrArg (fun m => m[j]?) hbefore
    simpa [List.getElem?_take, hlo, hstart ▸ hlo] using this
  · by_cases hhi : j < span.start + span.len
    · rw [h j (by omega) hhi, h' j (by omega) (by omega)]
    · have := congrArg (fun m => m[j - (span.start + span.len)]?) hafter
      simp only [List.getElem?_drop] at this
      rwa [← hstop, Nat.add_sub_cancel' (by omega)] at this

theorem parts_parts (segments : List UInt16) : Parts ':' (parts segments) :=
  parts_toDigits (by decide) (by decide) isSeparator_colon _

theorem parts_inj {l l' : List UInt16} (h : parts l = parts l') : l = l' :=
  map_toDigits_inj (by decide) (by decide) (fun _ _ => UInt16.toNat_inj.mp) h

theorem dot_not_mem_fmtSubslice (segments : List UInt16) : '.' ∉ fmtSubslice segments :=
  not_mem_intercalate (by decide) (by decide) isSeparator_dot (by decide) _

/-- The two bytes of a segment determine it. -/
theorem segment_eq_of_bytes {x y : UInt16} (hhi : (x >>> 8).toUInt8 = (y >>> 8).toUInt8)
    (hlo : x.toUInt8 = y.toUInt8) : x = y := by
  have h₁ := congrArg UInt8.toNat hhi
  have h₂ := congrArg UInt8.toNat hlo
  simp [Nat.shiftRight_eq_div_pow] at h₁ h₂
  have hx := x.toNat_lt
  have hy := y.toNat_lt
  apply UInt16.toNat_inj.mp
  omega

theorem toIpv4Mapped_eq_some_iff {ip : Ipv6Addr} {ipv4 : Ipv4Addr} :
    ip.toIpv4Mapped = some ipv4 ↔ ∃ ab cd, ip.segments = [0, 0, 0, 0, 0, 0xffff, ab, cd] ∧
      ipv4 = ⟨(ab >>> 8).toUInt8, ab.toUInt8, (cd >>> 8).toUInt8, cd.toUInt8⟩ := by
  unfold toIpv4Mapped
  split
  · next ab cd hs =>
      constructor
      · intro h
        exact ⟨ab, cd, hs, (Option.some.inj h).symm⟩
      · rintro ⟨ab', cd', hs', rfl⟩
        rw [hs] at hs'
        simp only [List.cons.injEq, and_true, true_and] at hs'
        obtain ⟨rfl, rfl⟩ := hs'
        rfl
  · next hno =>
      constructor
      · simp
      · rintro ⟨ab, cd, hs, -⟩
        exact absurd hs (hno ab cd)

/-- The mapped address determines the segments. -/
theorem eq_of_mapped {ip ip' : Ipv6Addr} {ipv4 : Ipv4Addr} (h : ip.toIpv4Mapped = some ipv4)
    (h' : ip'.toIpv4Mapped = some ipv4) : ip = ip' := by
  obtain ⟨ab, cd, hs, rfl⟩ := toIpv4Mapped_eq_some_iff.mp h
  obtain ⟨ab', cd', hs', he⟩ := toIpv4Mapped_eq_some_iff.mp h'
  obtain ⟨h₁, h₂, h₃, h₄⟩ := Ipv4Addr.mk.inj he
  rw [segment_eq_of_bytes h₁ h₂, segment_eq_of_bytes h₃ h₄, ← hs'] at hs
  cases ip
  cases ip'
  simpa using hs

/-- The text of an address that is not mapped. -/
theorem display_of_unmapped {ip : Ipv6Addr} (h : ip.toIpv4Mapped = none) :
    ip.display = if ip.zeroes.len > 1 then
        fmtSubslice (ip.segments.take ip.zeroes.start) ++
          ':' :: ':' :: fmtSubslice (ip.segments.drop (ip.zeroes.start + ip.zeroes.len))
      else fmtSubslice ip.segments := by
  rw [display, h]

theorem parts_segments_ne_nil (ip : Ipv6Addr) : parts ip.segments ≠ [] := by
  have hlen := ip.length_eq
  intro h
  rw [parts, List.map_eq_nil_iff] at h
  simp [h] at hlen

/-- The texts of addresses that are not mapped. -/
theorem segments_eq_of_unmapped {ip ip' : Ipv6Addr} (hm : ip.toIpv4Mapped = none)
    (hm' : ip'.toIpv4Mapped = none) (h : ip.display = ip'.display) : ip.segments = ip'.segments := by
  rw [display_of_unmapped hm, display_of_unmapped hm'] at h
  have hgap : ∀ (ip ip' : Ipv6Addr), fmtSubslice ip.segments ≠
      fmtSubslice (ip'.segments.take ip'.zeroes.start) ++
        ':' :: ':' :: fmtSubslice (ip'.segments.drop (ip'.zeroes.start + ip'.zeroes.len)) :=
    fun ip _ => intercalate_ne_elided (parts_parts _) ip.parts_segments_ne_nil (parts_parts _) (parts_parts _)
  split_ifs at h with hz hz' hz'
  · obtain ⟨hbefore, hafter⟩ := elided_inj (parts_parts _) (parts_parts _) (parts_parts _) (parts_parts _) h
    exact eq_of_around (ip.length_eq.trans ip'.length_eq.symm) ip.zeroes_zeroes ip'.zeroes_zeroes
      (by omega) (by omega) (parts_inj hbefore) (parts_inj hafter)
  · exact absurd h.symm (hgap ip' ip)
  · exact absurd h (hgap ip ip')
  · exact parts_inj (intercalate_inj (parts_parts _) (parts_parts _) h)

theorem dot_not_mem_of_unmapped {ip : Ipv6Addr} (h : ip.toIpv4Mapped = none) : '.' ∉ ip.display := by
  have hcolon : ('.' : Char) ≠ ':' := by decide
  rw [display_of_unmapped h]
  split_ifs
  · simp only [List.mem_append, List.mem_cons, not_or]
    exact ⟨dot_not_mem_fmtSubslice _, hcolon, hcolon, dot_not_mem_fmtSubslice _⟩
  · exact dot_not_mem_fmtSubslice _

theorem display_inj {ip ip' : Ipv6Addr} (h : ip.display = ip'.display) : ip = ip' := by
  have hdot : ∀ {ip : Ipv6Addr} {ipv4 : Ipv4Addr}, ip.toIpv4Mapped = some ipv4 → '.' ∈ ip.display := by
    intro ip ipv4 hm
    rw [display, hm]
    exact List.mem_append_right _ ipv4.dot_mem_display
  cases hm : ip.toIpv4Mapped with
  | some ipv4 =>
      cases hm' : ip'.toIpv4Mapped with
      | some ipv4' =>
          rw [display, display, hm, hm'] at h
          have hipv4 := Ipv4Addr.display_inj (List.append_cancel_left h)
          exact eq_of_mapped hm (hipv4 ▸ hm')
      | none => exact absurd (h ▸ hdot hm) (dot_not_mem_of_unmapped hm')
  | none =>
      cases hm' : ip'.toIpv4Mapped with
      | some ipv4' => exact absurd (h ▸ hdot hm') (dot_not_mem_of_unmapped hm)
      | none =>
          have hs := segments_eq_of_unmapped hm hm' h
          cases ip
          cases ip'
          simpa using hs

theorem colon_mem_display (ip : Ipv6Addr) : ':' ∈ ip.display := by
  unfold display
  split
  · simp
  · split_ifs
    · simp
    · have hlen := ip.length_eq
      match hs : ip.segments with
      | [] => simp [hs] at hlen
      | [_] => simp [hs] at hlen
      | x :: y :: l => simp [fmtSubslice, parts, List.intercalate_cons_cons]

end Ipv6Addr

/-- **Two addresses have different texts.** -/
theorem IpAddr.toString_inj {ip ip' : IpAddr} (h : ip.toString = ip'.toString) : ip = ip' := by
  cases ip with
  | v4 addr =>
      cases ip' with
      | v4 addr' => rw [Ipv4Addr.display_inj (String.ofList_injective h)]
      | v6 addr' =>
          have hd : addr.display = addr'.display := String.ofList_injective h
          exact absurd (hd ▸ addr'.colon_mem_display) addr.colon_not_mem_display
  | v6 addr =>
      cases ip' with
      | v4 addr' =>
          have hd : addr.display = addr'.display := String.ofList_injective h
          exact absurd (hd ▸ addr.colon_mem_display) addr'.colon_not_mem_display
      | v6 addr' => rw [Ipv6Addr.display_inj (String.ofList_injective h)]

end AraNotification
