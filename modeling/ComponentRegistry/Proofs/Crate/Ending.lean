import ComponentRegistry.Proofs.Crate.Search
import ComponentRegistry.Proofs.Disk.Lookup
import Mathlib.Data.Fintype.BigOperators
import Mathlib.Data.String.Basic

/-! The search of a disk ends: it comes to no path twice, and there are fewer paths that can be read
than it may take turns (`Disk.pending_eq_nil`). A path is counted as a pattern, the characters of its
segments with a mark behind each of them. -/

namespace ComponentRegistry

namespace FilePath

/-- The characters of some segments with a mark behind each of them. -/
def marked (segments : List String) : List (Option Char) :=
  segments.flatMap fun segment => segment.toList.map some ++ [none]

theorem marked_cons (segment : String) (segments : List String) :
    marked (segment :: segments) = segment.toList.map some ++ none :: marked segments := by
  simp [marked]

theorem append_none_inj {as bs : List Char} {xs ys : List (Option Char)}
    (h : as.map some ++ none :: xs = bs.map some ++ none :: ys) : as = bs ∧ xs = ys := by
  induction as generalizing bs with
  | nil => cases bs <;> simp_all
  | cons a as ih =>
    cases bs with
    | nil => simp at h
    | cons b bs =>
      simp only [List.map_cons, List.cons_append, List.cons.injEq, Option.some.injEq] at h
      obtain ⟨rfl, rfl⟩ := ih h.2
      exact ⟨by rw [h.1], rfl⟩

theorem marked_injective {segments others : List String} (h : marked segments = marked others) :
    segments = others := by
  induction segments generalizing others with
  | nil => cases others <;> simp_all [marked]
  | cons segment segments ih =>
    cases others with
    | nil => simp [marked] at h
    | cons other others =>
      rw [marked_cons, marked_cons] at h
      obtain ⟨hsegment, hrest⟩ := append_none_inj h
      rw [ih hrest, String.toList_inj.mp hsegment]

theorem length_marked_le {segments others : List String} (h : segments.Sublist others) :
    (marked segments).length ≤ (marked others).length := by
  induction h with
  | slnil => exact Nat.le_refl _
  | cons other _ ih =>
    rw [marked_cons, List.length_append, List.length_cons]
    omega
  | cons_cons other _ ih =>
    rw [marked_cons, marked_cons, List.length_append, List.length_append, List.length_cons,
      List.length_cons]
    omega

theorem length_le_utf8Len (cs : List Char) : cs.length ≤ String.utf8Len cs := by
  induction cs with
  | nil => exact Nat.le_refl _
  | cons c cs ih =>
    have := c.utf8Size_pos
    rw [List.length_cons, String.utf8Len_cons]
    omega

theorem length_marked_le_intercalate (segments : List String) :
    (marked segments).length ≤ ("/".intercalate segments).utf8ByteSize + 1 := by
  induction segments with
  | nil => exact Nat.zero_le _
  | cons segment segments ih =>
    have hsegment : segment.toList.length ≤ segment.utf8ByteSize := by
      rw [← String.utf8Len_toList]
      exact length_le_utf8Len _
    rw [marked_cons, List.length_append, List.length_map, List.length_cons]
    cases segments with
    | nil =>
      rw [String.intercalate_singleton]
      simp only [marked, List.flatMap_nil, List.length_nil]
      omega
    | cons other segments =>
      have hslash : ("/" : String).utf8ByteSize = 1 := rfl
      rw [String.intercalate_cons_cons, String.utf8ByteSize_append, String.utf8ByteSize_append]
      omega

theorem length_marked_le_text (p : FilePath) :
    (marked p.segments).length ≤ p.text.utf8ByteSize + 1 := by
  have hle := length_marked_le_intercalate p.segments
  rw [text, String.utf8ByteSize_append]
  omega

theorem lead_append_body (p : FilePath) : p.lead ++ p.body = p.segments := by
  unfold body lead
  split
  next h =>
    obtain ⟨-, hdot⟩ := Bool.and_eq_true_iff.mp h
    cases hs : p.segments with
    | nil => simp [hs] at hdot
    | cons first rest =>
      have hfirst : first = "." := by simpa [hs] using hdot
      rw [hfirst]
      rfl
  next => rfl

theorem sublist_normal (p : FilePath) : p.normal.segments.Sublist p.segments := by
  rw [← lead_append_body p]
  exact (List.Sublist.refl _).append List.filter_sublist

theorem sublist_join (base p : FilePath) : p.segments.Sublist (base.join p).segments := by
  unfold join
  split
  · exact List.Sublist.refl _
  · exact List.sublist_append_right ..

end FilePath

namespace Disk

open FilePath

/-- The number of characters, and that of the places in a pattern. -/
abbrev Pattern : Type := Bool × (Fin (longestPath + 1) → Fin (0x110000 + 1))

/-- A mark comes after all characters, and what is no character fills the places at the end. -/
def place : Option (Option Char) → Fin (0x110000 + 1)
  | some (some c) => ⟨c.toNat, Nat.lt_succ_of_lt (by
      rcases c.valid with h | h
      · exact Nat.lt_trans h (by decide)
      · exact h.2)⟩
  | some none => ⟨0x110000, by decide⟩
  | none => ⟨0xD800, by decide⟩

theorem toNat_ne (c : Char) : c.toNat ≠ 0xD800 ∧ c.toNat < 0x110000 := by
  rcases c.valid with h | h
  · have h : c.toNat < 0xD800 := h
    omega
  · have h : 0xDFFF < c.toNat ∧ c.toNat < 0x110000 := h
    omega

theorem place_injective {x y : Option (Option Char)} (h : place x = place y) : x = y := by
  have h := congrArg Fin.val h
  rcases x with _ | _ | c <;> rcases y with _ | _ | d <;> simp only [place] at h ⊢
  · cases h
  · exact absurd h.symm (toNat_ne d).1
  · cases h
  · exact absurd h (Nat.ne_of_gt (toNat_ne d).2)
  · exact absurd h (toNat_ne c).1
  · exact absurd h (Nat.ne_of_lt (toNat_ne c).2)
  · rw [Char.toNat_inj.mp h]

/-- The pattern of what identifies a file. -/
def pattern (x : Nat × FilePath) : Pattern :=
  (x.2.absolute, fun i => place (marked x.2.segments)[i.val]?)

/-- What identifies a path that fits into a pattern. -/
def Fits (x : Nat × FilePath) : Prop :=
  x.1 = x.2.segments.length ∧ (marked x.2.segments).length ≤ longestPath + 1

theorem pattern_injective {x y : Nat × FilePath} (hx : Fits x) (hy : Fits y)
    (h : pattern x = pattern y) : x = y := by
  obtain ⟨habsolute, hplaces⟩ := Prod.mk.inj h
  have hmarked : marked x.2.segments = marked y.2.segments := by
    refine List.ext_getElem? fun i => ?_
    by_cases hi : i < longestPath + 1
    · exact place_injective (congrFun hplaces ⟨i, hi⟩)
    · have hxi := hx.2
      have hyi := hy.2
      rw [List.getElem?_eq_none (by omega), List.getElem?_eq_none (by omega)]
  obtain ⟨n, a, segments⟩ := x
  obtain ⟨k, b, others⟩ := y
  obtain rfl : segments = others := marked_injective hmarked
  obtain rfl : a = b := habsolute
  have hn : n = segments.length := hx.1
  have hk : k = segments.length := hy.1
  rw [hn, hk]

/-- The pattern of no path: it is filled up from the first place on, and then goes on. -/
def noPattern : Pattern :=
  (false, fun i => if i.val = 0 then place none else place (some none))

theorem pattern_ne_noPattern (x : Nat × FilePath) : pattern x ≠ noPattern := by
  intro h
  have hplaces := congrFun (congrArg Prod.snd h)
  have h0 : (marked x.2.segments)[0]? = none :=
    place_injective (hplaces ⟨0, by decide⟩)
  have h1 : (marked x.2.segments)[1]? = some none :=
    place_injective (hplaces ⟨1, by decide⟩)
  rw [List.getElem?_eq_none_iff] at h0
  rw [List.getElem?_eq_none (by omega)] at h1
  cases h1

theorem card_prod_fun (m n : Nat) : Fintype.card (Bool × (Fin m → Fin n)) = 2 * Nat.pow n m := by
  rw [Fintype.card_prod, Fintype.card_bool, Fintype.card_fun, Fintype.card_fin, Fintype.card_fin]
  rfl

theorem card_pattern : Fintype.card Pattern = manyPaths := card_prod_fun _ _

theorem length_lt_manyPaths {xs : List (Nat × FilePath)} (hnodup : xs.Nodup)
    (hfits : ∀ x ∈ xs, Fits x) : xs.length < manyPaths := by
  have hpatterns : (xs.map pattern).Nodup :=
    List.Nodup.map_on (fun x hx y hy h => pattern_injective (hfits x hx) (hfits y hy) h) hnodup
  have hfresh : noPattern ∉ xs.map pattern := by
    intro hmem
    obtain ⟨x, -, hx⟩ := List.mem_map.mp hmem
    exact pattern_ne_noPattern x hx
  have hle := (List.nodup_cons.mpr ⟨hfresh, hpatterns⟩).length_le_card
  rwa [List.length_cons, List.length_map, card_pattern] at hle

theorem fits_of_read {d : Disk} {directory p : FilePath} {text : String}
    (h : d.readText (directory.join p) = .ok text) : Fits p.identity := by
  obtain ⟨contents, hfile, -⟩ := readText_eq_ok.mp h
  obtain ⟨name, hok, -⟩ := fileAt?_eq_some.mp hfile
  refine ⟨rfl, ?_⟩
  have hshort := hok.short
  have htext := length_marked_le_text (directory.join p)
  have hsub := length_marked_le ((sublist_normal p).trans (sublist_join directory p))
  have : (marked p.identity.2.segments).length = (marked p.normal.segments).length := rfl
  omega

/-- A search of a disk that has begun with no file and goes on for as many turns as it may has come
to its end. -/
theorem pending_eq_nil {d : Disk} {directory : FilePath} {search final : Search}
    (hseen : search.seen = []) (hfiles : search.found.files = [])
    (hrun : d.sources.run directory manyPaths search = .ok final) : final.pending = [] := by
  refine (Sources.run_ends hrun).resolve_right fun hlength => ?_
  have hstart : d.sources.Reads directory search :=
    ⟨by simp [hseen], by simp [hseen], by simp [hfiles]⟩
  have hfinal := hstart.run hrun
  have hlt : final.seen.length < manyPaths := by
    refine length_lt_manyPaths hfinal.nodup fun x hx => ?_
    obtain ⟨p, rfl, hp⟩ := hfinal.listed x hx
    obtain ⟨text, htext⟩ := hfinal.read _ hp
    exact fits_of_read htext
  rw [hlength, hseen, List.length_nil, Nat.zero_add] at hlt
  exact Nat.lt_irrefl _ hlt

end Disk

end ComponentRegistry
