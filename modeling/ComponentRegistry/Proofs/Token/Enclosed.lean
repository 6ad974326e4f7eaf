import ComponentRegistry.Proofs.Text.Quoted
import ComponentRegistry.Proofs.Token.Word
import Mathlib.Data.List.TakeWhile

/-! Literals between quotes end by themselves: what stands behind the closing quote has no say in how
they are read (`Literal.quoted?_ends`, `Literal.raw?_ends`). -/

namespace ComponentRegistry.Literal

open Text

/-- The text before `rest` is read in the same way whatever follows it. -/
def Consumes {α : Type} (read : List Char → Option (α × List Char)) (cs : List Char) (value : α)
    (rest : List Char) : Prop :=
  ∃ taken, taken ≠ [] ∧ cs = taken ++ rest ∧ ∀ more, read (taken ++ more) = some (value, more)

/-- A reader that does not look at what follows. -/
def Ends {α : Type} (read : List Char → Option (α × List Char)) : Prop :=
  ∀ {cs : List Char} {value : α} {rest : List Char}, read cs = some (value, rest) →
    Consumes read cs value rest

/-- A reader that takes some text before it goes on as another one does. -/
theorem Consumes.prepend {α β : Type} {read : List Char → Option (α × List Char)}
    {read' : List Char → Option (β × List Char)} {cs rest : List Char} {value : α}
    (h : Consumes read cs value rest) (before : List Char) {f : α → β}
    (hread : ∀ more, read' (before ++ more) = (read more).map fun (value, rest) => (f value, rest)) :
    Consumes read' (before ++ cs) (f value) rest := by
  obtain ⟨taken, hne, rfl, hmore⟩ := h
  refine ⟨before ++ taken, by simp [hne], by simp, fun more => ?_⟩
  rw [List.append_assoc, hread, hmore]
  rfl

theorem hexEscape?_ends (content : Content) : Ends (hexEscape? content) := by
  intro cs value rest h
  unfold hexEscape? at h
  split at h
  next a b cs =>
    obtain ⟨high, hhigh, h⟩ := Option.bind_eq_some_iff.mp h
    obtain ⟨low, hlow, h⟩ := Option.bind_eq_some_iff.mp h
    dsimp only at h
    split at h
    · cases h
    next hallowed =>
      obtain ⟨rfl, rfl⟩ := Prod.mk.inj (Option.some.inj h)
      refine ⟨[a, b], by simp, rfl, fun more => ?_⟩
      have hread : hexEscape? content (a :: b :: more) =
          if (content = .text && 8 ≤ high) || (content = .cString && 16 * high + low = 0) then none
          else some (Char.ofNat (16 * high + low), more) := by
        simp [hexEscape?, hhigh, hlow]
      exact hread.trans (if_neg hallowed)
  next => cases h

theorem codePoint?_ends (value digits : Nat) : Ends (codePoint? value digits) := by
  intro cs
  induction cs generalizing value digits with
  | nil => intro n rest h; cases h
  | cons c cs ih =>
    intro n rest h
    rw [codePoint?] at h
    split at h
    next hbrace =>
      split at h
      next hdigits =>
        obtain ⟨rfl, rfl⟩ := Prod.mk.inj (Option.some.inj h)
        exact ⟨[c], by simp, rfl, fun more => by simp [codePoint?, hbrace, hdigits]⟩
      next => cases h
    next hbrace =>
      split at h
      next hunderscore =>
        split at h
        next hdigits =>
          obtain ⟨taken, -, rfl, hmore⟩ := ih value digits h
          exact ⟨c :: taken, by simp, rfl, fun more => by
            simp [codePoint?, hunderscore, hdigits, hmore]⟩
        next => cases h
      next hunderscore =>
        split at h
        next => cases h
        next digit hdigit =>
          split at h
          next => cases h
          next hdigits =>
            obtain ⟨taken, -, rfl, hmore⟩ := ih _ _ h
            exact ⟨c :: taken, by simp, rfl, fun more => by
              simp [codePoint?, hbrace, hunderscore, hdigit, hdigits, hmore]⟩

theorem unicodeEscape?_ends (content : Content) : Ends (unicodeEscape? content) := by
  intro cs value rest h
  unfold unicodeEscape? at h
  split at h
  next cs =>
    obtain ⟨⟨n, after⟩, hn, h⟩ := Option.bind_eq_some_iff.mp h
    dsimp only at h
    split at h
    · cases h
    next hallowed =>
      split at h
      next hvalid =>
        obtain ⟨rfl, rfl⟩ := Prod.mk.inj (Option.some.inj h)
        obtain ⟨taken, -, rfl, hmore⟩ := codePoint?_ends 0 0 hn
        refine ⟨'\x7b' :: taken, by simp, rfl, fun more => ?_⟩
        have hread : unicodeEscape? content ('\x7b' :: (taken ++ more)) =
            if content = .bytes || (content = .cString && n = 0) then none
            else if n.isValidChar then some (Char.ofNat n, more) else none := by
          simp [unicodeEscape?, hmore]
        rw [List.cons_append, hread, if_neg hallowed, if_pos hvalid]
      next => cases h
  next => cases h

theorem escape?_ends (content : Content) : Ends (escape? content) := by
  intro cs value rest h
  cases cs with
  | nil => cases h
  | cons c cs =>
    have hletter : ∀ {d}, (∀ more, escape? content (c :: more) = some (d, more)) →
        some (d, cs) = some (value, rest) → Consumes (escape? content) (c :: cs) value rest := by
      intro d hread hd
      obtain ⟨rfl, rfl⟩ := Prod.mk.inj (Option.some.inj hd)
      exact ⟨[c], by simp, rfl, hread⟩
    have hdigits : ∀ {read : List Char → Option (Char × List Char)}, Ends read →
        (∀ more, escape? content (c :: more) = read more) → read cs = some (value, rest) →
        Consumes (escape? content) (c :: cs) value rest := by
      intro read hends hread hvalue
      refine (hends hvalue).prepend [c] (f := id) fun more => ?_
      rw [List.singleton_append, hread]
      simp
    rw [escape?] at h
    split at h
    next hn => exact hletter (fun more => by simp [escape?, hn]) h
    split at h
    next hr => exact hletter (fun more => by simp [escape?, hr]) h
    split at h
    next ht => exact hletter (fun more => by simp [escape?, ht]) h
    split at h
    next hn hr ht hself =>
      exact hletter (fun more => by
        rw [escape?, if_neg hn, if_neg hr, if_neg ht, if_pos hself]) h
    split at h
    next hzero =>
      split at h
      next => cases h
      next hcontent => exact hletter (fun more => by simp [escape?, hzero, hcontent]) h
    split at h
    next hx => exact hdigits (hexEscape?_ends content) (fun more => by simp [escape?, hx]) h
    split at h
    next hu => exact hdigits (unicodeEscape?_ends content) (fun more => by simp [escape?, hu]) h
    next => cases h

theorem joinLines?_ends {cs rest : List Char} (h : joinLines? cs = some rest) :
    ∃ taken c next, cs = taken ++ rest ∧ rest = c :: next ∧
      ∀ more, joinLines? (taken ++ c :: more) = some (c :: more) := by
  fun_induction joinLines? cs with
  | case1 => cases h
  | case2 c cs hblank ih =>
    obtain ⟨taken, d, next, rfl, hd, hmore⟩ := ih h
    exact ⟨c :: taken, d, next, rfl, hd, fun more => by
      rw [List.cons_append, joinLines?.eq_def]
      simp only [hblank, if_true, hmore]⟩
  | case3 cs hblank ih =>
    obtain ⟨taken, d, next, rfl, hd, hmore⟩ := ih h
    exact ⟨'\r' :: '\n' :: taken, d, next, rfl, hd, fun more => by
      rw [List.cons_append, List.cons_append, joinLines?, if_neg hblank, if_pos rfl]
      exact hmore more⟩
  | case4 => cases h
  | case5 c cs hblank hreturn =>
    obtain rfl := Option.some.inj h
    exact ⟨[], c, cs, rfl, rfl, fun more => by
      rw [List.nil_append, joinLines?.eq_def]
      simp only [if_neg hblank, if_neg hreturn]⟩

theorem lineBreak?_ends {cs rest : List Char} (h : lineBreak? cs = some rest) :
    ∃ taken, cs = taken ++ rest ∧ ∀ more, lineBreak? (taken ++ more) = some more := by
  unfold lineBreak? at h
  split at h
  · obtain rfl := Option.some.inj h
    exact ⟨['\n'], rfl, fun _ => rfl⟩
  · obtain rfl := Option.some.inj h
    exact ⟨['\r', '\n'], rfl, fun _ => rfl⟩
  · cases h

/-- What starts an escape is no line break, whatever follows. -/
theorem lineBreak?_of_escape? {content : Content} {c d : Char} {cs rest : List Char}
    (h : escape? content (c :: cs) = some (d, rest)) (more : List Char) :
    lineBreak? (c :: more) = none := by
  apply lineBreak?_of_ne
  · rintro rfl
    cases h
  · rintro rfl
    cases h

theorem quoted?_joined {content : Content} {cs after next : List Char}
    (hbreak : lineBreak? cs = some after) (hjoin : joinLines? after = some next) :
    quoted? content ('\\' :: cs) = quoted? content next := by
  rw [quoted?.eq_def]
  simp only [show ¬ '\\' = '\x22' by decide, if_false, if_true]
  split
  next found h =>
    obtain rfl := Option.some.inj (hbreak.symm.trans h)
    split
    next found h =>
      obtain rfl := Option.some.inj (hjoin.symm.trans h)
      rfl
    next h => simp [hjoin] at h
  next h => simp [hbreak] at h

theorem quoted?_feed (content : Content) (cs : List Char) :
    quoted? content ('\r' :: '\n' :: cs) =
      (quoted? content cs).map fun (value, rest) => ('\n' :: value, rest) := by
  rw [quoted?.eq_def]
  simp only [show ¬ '\r' = '\x22' by decide, show ¬ '\r' = '\\' by decide, if_false, if_true]

theorem quoted?_ends (content : Content) : Ends (quoted? content) := by
  intro cs value rest h
  fun_induction quoted? content cs generalizing value rest with
  | case1 => cases h
  | case2 cs =>
    obtain ⟨rfl, rfl⟩ := Prod.mk.inj (Option.some.inj h)
    exact ⟨['\x22'], by simp, rfl, quoted?_quote content⟩
  | case3 cs after hbreak next hjoin _ _ _ ih =>
    obtain ⟨feed, rfl, hfeed⟩ := lineBreak?_ends hbreak
    obtain ⟨blanks, c, cs, rfl, rfl, hblanks⟩ := joinLines?_ends hjoin
    obtain ⟨taken, hne, hcs, hmore⟩ := ih h
    obtain ⟨d, taken, rfl⟩ := List.exists_cons_of_ne_nil hne
    obtain ⟨rfl, rfl⟩ := List.cons.inj hcs
    refine ⟨'\\' :: (feed ++ (blanks ++ c :: taken)), by simp, by simp, fun more => ?_⟩
    have hread := @quoted?_joined content _ _ _ (hfeed (blanks ++ c :: (taken ++ more)))
      (hblanks (taken ++ more))
    simp only [List.cons_append, List.append_assoc]
    exact hread.trans (hmore more)
  | case4 => cases h
  | case5 cs hbreak c next hescape _ _ ih =>
    obtain ⟨⟨found, after⟩, hfound, h⟩ := Option.map_eq_some_iff.mp h
    obtain ⟨rfl, rfl⟩ := Prod.mk.inj h
    obtain ⟨escaped, hne, rfl, hmore⟩ := escape?_ends content hescape
    obtain ⟨d, escaped, rfl⟩ := List.exists_cons_of_ne_nil hne
    refine (ih hfound).prepend ('\\' :: d :: escaped) fun more => ?_
    exact quoted?_escape (lineBreak?_of_escape? hescape _) (hmore more)
  | case6 => cases h
  | case7 cs _ _ ih =>
    obtain ⟨⟨found, after⟩, hfound, h⟩ := Option.map_eq_some_iff.mp h
    obtain ⟨rfl, rfl⟩ := Prod.mk.inj h
    exact (ih hfound).prepend ['\r', '\n'] (quoted?_feed content)
  | case8 => cases h
  | case9 c cs hquote hslash hreturn hadmits ih =>
    obtain ⟨⟨found, after⟩, hfound, h⟩ := Option.map_eq_some_iff.mp h
    obtain ⟨rfl, rfl⟩ := Prod.mk.inj h
    exact (ih hfound).prepend [c] (quoted?_plain hquote hslash hreturn hadmits)
  | case10 => cases h

/-- What is read of a raw literal is longer than the number signs that end it, so that no other end
comes about when something else follows. -/
theorem rawQuoted?_consumes {content : Content} {hashes : Nat} {cs value rest : List Char}
    (h : rawQuoted? content hashes cs = some (value, rest)) :
    ∃ taken, hashes < taken.length ∧ cs = taken ++ rest ∧
      ∀ more, rawQuoted? content hashes (taken ++ more) = some (value, more) := by
  fun_induction rawQuoted? content hashes cs generalizing value rest with
  | case1 => cases h
  | case2 c cs hend =>
    obtain ⟨rfl, rfl⟩ := Prod.mk.inj (Option.some.inj h)
    obtain ⟨rfl, hsigns⟩ : c = '\x22' ∧ cs.take hashes = List.replicate hashes '#' := by
      simpa using hend
    have hcs : cs = List.replicate hashes '#' ++ cs.drop hashes := by
      rw [← hsigns, List.take_append_drop]
    refine ⟨'\x22' :: List.replicate hashes '#', by simp, ?_, fun more => ?_⟩
    · rw [List.cons_append, ← hcs]
    · rw [List.cons_append, rawQuoted?.eq_def]
      simp
  | case3 cs hend ih =>
    obtain ⟨⟨found, after⟩, hfound, h⟩ := Option.map_eq_some_iff.mp h
    obtain ⟨rfl, rfl⟩ := Prod.mk.inj h
    obtain ⟨taken, hlength, rfl, hmore⟩ := ih hfound
    refine ⟨'\r' :: '\n' :: taken, by simp only [List.length_cons]; omega, rfl, fun more => ?_⟩
    simp [rawQuoted?, hmore]
  | case4 => cases h
  | case5 c cs hend hreturn hadmits ih =>
    obtain ⟨⟨found, after⟩, hfound, h⟩ := Option.map_eq_some_iff.mp h
    obtain ⟨rfl, rfl⟩ := Prod.mk.inj h
    obtain ⟨taken, hlength, rfl, hmore⟩ := ih hfound
    refine ⟨c :: taken, by simp only [List.length_cons]; omega, rfl, fun more => ?_⟩
    have htake : ∀ more : List Char, (taken ++ more).take hashes = taken.take hashes :=
      fun more => List.take_append_of_le_length (by omega)
    rw [htake] at hend
    rw [List.cons_append, rawQuoted?.eq_def]
    simp only [htake, if_neg hend, if_neg hreturn, if_pos hadmits, hmore]
    rfl
  | case6 => cases h

theorem raw?_ends (content : Content) : Ends (raw? content) := by
  intro cs value rest h
  unfold raw? at h
  dsimp only at h
  split at h
  next after hquote =>
    split at h
    next hhashes =>
      obtain ⟨taken, -, rfl, hmore⟩ := rawQuoted?_consumes h
      generalize hcount : (cs.takeWhile (· = '#')).length = hashes at hquote hhashes hmore
      have hsigns : cs.takeWhile (· = '#') = List.replicate hashes '#' := by
        rw [← hcount]
        exact List.eq_replicate_of_mem fun c hc => by simpa using List.mem_takeWhile_imp hc
      have hcs : cs = List.replicate hashes '#' ++ '\x22' :: (taken ++ rest) := by
        have hdrop : cs.drop hashes = cs.dropWhile (· = '#') := by
          have hleft : (cs.takeWhile (· = '#') ++ cs.dropWhile (· = '#')).drop hashes =
              cs.dropWhile (· = '#') := List.drop_left' hcount
          rwa [List.takeWhile_append_dropWhile] at hleft
        rw [← hquote, ← hsigns, hdrop, List.takeWhile_append_dropWhile]
      refine ⟨List.replicate hashes '#' ++ '\x22' :: taken, by simp, by rw [hcs]; simp,
        fun more => ?_⟩
      have hread : ∀ more : List Char,
          (List.replicate hashes '#' ++ '\x22' :: more).takeWhile (· = '#') =
            List.replicate hashes '#' := by
        intro more
        rw [List.takeWhile_append_of_pos (by simp), List.takeWhile_cons_of_neg (by simp),
          List.append_nil]
      rw [List.append_assoc, List.cons_append, raw?, hread, List.length_replicate,
        List.drop_left' List.length_replicate]
      exact (if_pos hhashes).trans (hmore more)
    next => cases h
  next => cases h

/-- One character between apostrophes. -/
theorem charEnd?_ends {content : Content} {cs rest : List Char} (h : charEnd? content cs = some rest) :
    ∃ taken, taken ≠ [] ∧ cs = taken ++ rest ∧
      ∀ more, charEnd? content (taken ++ more) = some more := by
  cases cs with
  | nil => cases h
  | cons c cs =>
    rw [charEnd?] at h
    split at h
    next hslash =>
      obtain ⟨after, hafter, h⟩ := Option.bind_eq_some_iff.mp h
      obtain ⟨⟨value, found⟩, hescape, rfl⟩ := Option.map_eq_some_iff.mp hafter
      dsimp only at h
      split at h
      next closing =>
        obtain rfl := Option.some.inj h
        obtain ⟨escaped, -, rfl, hmore⟩ := escape?_ends content hescape
        refine ⟨c :: (escaped ++ ['\x27']), by simp, by simp, fun more => ?_⟩
        simp [charEnd?, hslash, hmore]
      next => cases h
    next hslash =>
      split at h
      next hadmits =>
        obtain ⟨after, hafter, h⟩ := Option.bind_eq_some_iff.mp h
        obtain rfl := Option.some.inj hafter
        dsimp only at h
        split at h
        next closing =>
          obtain rfl := Option.some.inj h
          exact ⟨[c, '\x27'], by simp, rfl, fun more => by simp [charEnd?, hslash, hadmits]⟩
        next => cases h
      next => cases h

/-- What follows the last quote of a literal that has quotes; how it starts tells which one it is. -/
def closed? : List Char → Option (List Char)
  | '\x22' :: rest => (quoted? .text rest).map (·.2)
  | 'r' :: rest => (raw? .text rest).map (·.2)
  | 'b' :: '\x22' :: rest => (quoted? .bytes rest).map (·.2)
  | 'b' :: 'r' :: rest => (raw? .bytes rest).map (·.2)
  | 'c' :: '\x22' :: rest => (quoted? .cString rest).map (·.2)
  | 'c' :: 'r' :: rest => (raw? .cString rest).map (·.2)
  | '\x27' :: rest => charEnd? .text rest
  | 'b' :: '\x27' :: rest => charEnd? .bytes rest
  | _ => none

theorem closed?_ends {cs rest : List Char} (h : closed? cs = some rest) :
    ∃ taken, taken ≠ [] ∧ cs = taken ++ rest ∧ ∀ more, closed? (taken ++ more) = some more := by
  have hvalue : ∀ {read : List Char → Option (List Char × List Char)}, Ends read →
      ∀ before {cs rest : List Char}, (∀ more, closed? (before ++ more) = (read more).map (·.2)) →
        (read cs).map (·.2) = some rest → ∃ taken, taken ≠ [] ∧ before ++ cs = taken ++ rest ∧
          ∀ more, closed? (taken ++ more) = some more := by
    intro read hends before cs rest hread hrest
    obtain ⟨⟨value, after⟩, hvalue, rfl⟩ := Option.map_eq_some_iff.mp hrest
    obtain ⟨taken, hne, rfl, hmore⟩ := hends hvalue
    refine ⟨before ++ taken, by simp [hne], by simp, fun more => ?_⟩
    rw [List.append_assoc, hread, hmore]
    rfl
  have hcharacter : ∀ {content : Content} (before : List Char) {cs rest : List Char},
      (∀ more, closed? (before ++ more) = charEnd? content more) →
      charEnd? content cs = some rest → ∃ taken, taken ≠ [] ∧ before ++ cs = taken ++ rest ∧
        ∀ more, closed? (taken ++ more) = some more := by
    intro content before cs rest hread hrest
    obtain ⟨taken, hne, rfl, hmore⟩ := charEnd?_ends hrest
    refine ⟨before ++ taken, by simp [hne], by simp, fun more => ?_⟩
    rw [List.append_assoc, hread, hmore]
  unfold closed? at h
  split at h
  · exact hvalue (quoted?_ends .text) ['\x22'] (fun _ => rfl) h
  · exact hvalue (raw?_ends .text) ['r'] (fun _ => rfl) h
  · exact hvalue (quoted?_ends .bytes) ['b', '\x22'] (fun _ => rfl) h
  · exact hvalue (raw?_ends .bytes) ['b', 'r'] (fun _ => rfl) h
  · exact hvalue (quoted?_ends .cString) ['c', '\x22'] (fun _ => rfl) h
  · exact hvalue (raw?_ends .cString) ['c', 'r'] (fun _ => rfl) h
  · exact hcharacter ['\x27'] (fun _ => rfl) h
  · exact hcharacter ['b', '\x27'] (fun _ => rfl) h
  · cases h

/-- What does not start with a digit is a literal only with quotes. -/
theorem end?_of_not_isDigit {c : Char} (h : c.isDigit = false) (cs : List Char) : end? (c :: cs) =
    (closed? (c :: cs)).map dropSuffix := by
  have hfloat : float? (c :: cs) = none := by simp [float?, floatDigits?, h]
  have hint := int?_of_not_isDigit h cs
  unfold closed?
  split
  all_goals simp_all [end?, string?, byteString?, cString?, character?, Function.comp_def]

theorem end?_of_isDigit {c : Char} (h : c.isDigit = true) (cs : List Char) : end? (c :: cs) =
    (float? (c :: cs)).or (int? (c :: cs)) := by
  have hne : ∀ k : Char, k.isDigit = false → c ≠ k := by
    rintro k hk rfl
    rw [h] at hk
    cases hk
  simp [end?, string?, byteString?, cString?, character?, hne '\x22' (by decide),
    hne 'r' (by decide), hne 'b' (by decide), hne 'c' (by decide), hne '\x27' (by decide)]

end ComponentRegistry.Literal
