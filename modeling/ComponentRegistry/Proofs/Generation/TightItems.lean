import ComponentRegistry.Proofs.Generation.ReadMethods
import ComponentRegistry.Proofs.Token.Printed
import Mathlib

/-! The generated code is printed so that its tokens stay apart. -/

namespace ComponentRegistry

namespace Lexer

/-- A mark that may stand before and after others. -/
def isFreeMark (c : Char) : Bool := isMark c && c != '\x27' && c != '/'

theorem isFreeMark_iff {c : Char} :
    isFreeMark c = true ↔ isMark c = true ∧ c ≠ '\x27' ∧ c ≠ '/' := by
  simp [isFreeMark, and_assoc]

theorem startsMark_of_isFreeMark {c : Char} (h : isFreeMark c = true) (cs : List Char) :
    startsMark (c :: cs) = true := by
  obtain ⟨hmark, -, hslash⟩ := isFreeMark_iff.mp h
  unfold startsMark
  split
  next heq => exact absurd (List.cons.inj heq).1 hslash
  next heq => exact absurd (List.cons.inj heq).1 hslash
  next heq =>
    obtain ⟨rfl, -⟩ := List.cons.inj heq
    exact hmark
  next heq => cases heq

def isTightToken : Token → Bool
  | .word raw name => decide (IsWord raw name)
  | .lifetime name => decide (IsWord false name)
  | .mark c _ => isFreeMark c
  | .literal _ => false

def startsFreeMark : List Tree → Bool
  | .leaf (.mark c _) :: _ => isFreeMark c
  | _ => false

mutual

def isTight : Tree → Bool
  | .leaf token => isTightToken token
  | .group _ inner => isTightAll inner

/-- A check for trees without literals that stay apart. -/
def isTightAll : List Tree → Bool
  | [] => true
  | tree :: rest => isTight tree && (!tree.isJoint || startsFreeMark rest) && isTightAll rest

end

theorem reads_of_isTightToken {token : Token} (h : isTightToken token = true)
    (hfree : (Tree.leaf token).isJoint = false) : Reads token := by
  cases token with
  | word raw name => exact .word (of_decide_eq_true h)
  | lifetime name =>
    have hreads := Reads.lifetime (of_decide_eq_true h : IsWord false name)
    rw [wordChars] at hreads
    simpa using hreads
  | mark c joint =>
    obtain ⟨hmark, hticks, -⟩ := isFreeMark_iff.mp h
    obtain rfl : joint = false := hfree
    exact .mark hmark hticks
  | literal text => cases h

theorem tight_joint {c : Char} {rest : List Tree} (hc : isFreeMark c = true)
    (hstarts : startsFreeMark rest = true) (hrest : Tight rest) :
    Tight (.leaf (.mark c true) :: rest) := by
  obtain ⟨hmark, hticks, -⟩ := isFreeMark_iff.mp hc
  refine .joint hmark hticks (fun {cs} _ => ⟨startsMark_of_isFreeMark hc _, ?_⟩) hrest
  unfold startsFreeMark at hstarts
  split at hstarts
  next d joint more =>
    have hchars : ∃ after, Tree.charsAll (.leaf (.mark d joint) :: more) ++ cs = d :: after :=
      ⟨_, by rw [Tree.charsAll, Tree.chars, Token.chars]; rfl⟩
    obtain ⟨after, hafter⟩ := hchars
    rw [hafter]
    exact startsMark_of_isFreeMark hstarts after
  next => cases hstarts

/-- The check is right. -/
theorem tight_of_isTightAll : ∀ {trees : List Tree}, isTightAll trees = true → Tight trees
  | [], _ => .nil
  | .leaf token :: rest, h => by
    rw [isTightAll, Bool.and_eq_true, Bool.and_eq_true, isTight] at h
    obtain ⟨⟨htoken, hstarts⟩, hrest⟩ := h
    cases hjoint : (Tree.leaf token).isJoint with
    | false => exact .leaf (reads_of_isTightToken htoken hjoint) (tight_of_isTightAll hrest)
    | true =>
      cases token with
      | mark c joint =>
        obtain rfl : joint = true := hjoint
        exact tight_joint htoken (by simpa [Tree.isJoint] using hstarts) (tight_of_isTightAll hrest)
      | word => cases hjoint
      | lifetime => cases hjoint
      | literal => cases hjoint
  | .group delimiter inner :: rest, h => by
    rw [isTightAll, Bool.and_eq_true, Bool.and_eq_true, isTight] at h
    exact .group (tight_of_isTightAll h.1.1) (tight_of_isTightAll h.2)

theorem tight_flatten {pieces : List (List Tree)} (h : ∀ piece ∈ pieces, Tight piece) :
    Tight pieces.flatten := by
  induction pieces with
  | nil => exact .nil
  | cons piece pieces ih =>
    exact (h piece List.mem_cons_self).append (ih fun e he => h e (List.mem_cons_of_mem _ he))

theorem tight_flatMap {ε : Type} {entries : List ε} {spelling : ε → List Tree}
    (h : ∀ e ∈ entries, Tight (spelling e)) : Tight (entries.flatMap spelling) := by
  refine tight_flatten fun piece hpiece => ?_
  obtain ⟨e, he, rfl⟩ := List.mem_map.mp hpiece
  exact h e he

end Lexer

namespace Artifact

open Grammar Lexer Path

variable {e : Entry} {entries : List Entry} {runtime : Spelling} {inner : Spelling}

theorem tight_code {text : String} (h : isTightAll (code text) = true) : Tight (code text) :=
  tight_of_isTightAll h

theorem tight_group {delimiter : Delimiter} (h : Tight inner) : Tight [.group delimiter inner] :=
  .group h .nil

theorem tight_inAngles (h : Tight inner) : Tight (Artifact.inAngles inner) :=
  ((tight_code (by decide_cbv)).append h).append (tight_code (by decide_cbv))

theorem tight_option (h : Tight inner) : Tight (option inner) :=
  (tight_code (by decide_cbv)).append (tight_inAngles h)

theorem tight_attributed (h : Tight inner) : Tight (attributed inner) :=
  (tight_code (by decide_cbv)).append (tight_group h)

theorem tight_quoted (text : String) : Tight (quoted text) := .leaf (.quoted text.toList) .nil

/-- A text without quotes and carriage returns. -/
def isRawText (text : String) : Bool := text.toList.all fun c => c != '\x22' && c != '\r'

theorem tight_doc {text : String} (h : isRawText text = true) : Tight (doc text) := by
  have hchars : ∀ c ∈ text.toList, c ≠ '\x22' ∧ c ≠ '\r' := by simpa [isRawText] using h
  have hliteral : "r\x22" ++ text ++ "\x22" =
      String.ofList ('r' :: '\x22' :: text.toList ++ ['\x22']) := by
    rw [← String.toList_inj]
    simp
  have hreads := Reads.rawQuoted hchars
  rw [← hliteral] at hreads
  exact tight_attributed ((tight_code (by decide_cbv)).append (.leaf hreads .nil))

theorem tight_name {name : Name} (h : IsWord name.raw name.text) : Tight name.spelling :=
  .leaf (.word h) .nil

/-- What stands for the names of an entry keeps apart when it is printed. -/
structure EntryTight (e : Entry) : Prop where
  variant : Tight e.variant.spelling
  type : Tight e.type.spelling
  accessor : ∀ accessor, e.accessor = some accessor → Tight accessor.spelling

theorem tight_variant (h : EntryTight e) : Tight (variant e) :=
  (h.variant.append (tight_group h.type)).append (tight_code (by decide_cbv))

theorem tight_enumeration (h : ∀ e ∈ entries, EntryTight e) : Tight (enumeration entries) :=
  ((tight_doc (by decide_cbv)).append (tight_code (by decide_cbv))).append
    (tight_group (tight_flatMap fun e he => tight_variant (h e he)))

theorem tight_typeNameArm (h : EntryTight e) : Tight (typeNameArm e) :=
  (((((tight_code (by decide_cbv)).append h.variant).append
    (tight_group (tight_code (by decide_cbv)))).append (tight_code (by decide_cbv))).append
      (tight_quoted e.name)).append (tight_code (by decide_cbv))

theorem tight_componentSet (hruntime : Tight runtime) (h : ∀ e ∈ entries, EntryTight e) :
    Tight (componentSet runtime entries) := by
  have harms : Tight (entries.flatMap typeNameArm) :=
    tight_flatMap fun e he => tight_typeNameArm (h e he)
  have hfunction : Tight (code "fn type_name" ++ parens (code "& self") ++
      code "-> & 'static str" ++ braces (code "match self" ++ braces (entries.flatMap typeNameArm))) :=
    (((tight_code (by decide_cbv)).append (tight_group (tight_code (by decide_cbv)))).append
      (tight_code (by decide_cbv))).append
        (tight_group ((tight_code (by decide_cbv)).append (tight_group harms)))
  exact (((tight_code (by decide_cbv)).append hruntime).append
    (tight_code (by decide_cbv))).append (tight_group hfunction)

theorem tight_conversion (h : EntryTight e) : Tight (conversion e) := by
  have hbody : Tight (code "Self ::" ++ e.variant.spelling ++ parens (code "component")) :=
    ((tight_code (by decide_cbv)).append h.variant).append
      (tight_group (tight_code (by decide_cbv)))
  have hfunction : Tight (code "fn from" ++ parens (code "component :" ++ e.type.spelling) ++
      code "-> Self" ++ braces (code "Self ::" ++ e.variant.spelling ++ parens (code "component"))) :=
    (((tight_code (by decide_cbv)).append
      (tight_group ((tight_code (by decide_cbv)).append h.type))).append
        (tight_code (by decide_cbv))).append (tight_group hbody)
  exact (((tight_code (by decide_cbv)).append (tight_inAngles h.type)).append
    (tight_code (by decide_cbv))).append (tight_group hfunction)

theorem tight_projection (h : EntryTight e) {name reference : String} (hname : Tight (code name))
    (hreference : Tight (code reference)) : Tight (projection e name reference) := by
  have hsome : Tight (code "AnyComponent ::" ++ e.variant.spelling ++ parens (code "inner") ++
      code "=> :: core :: option :: Option :: Some" ++ parens (code "inner") ++ code ",") :=
    (((((tight_code (by decide_cbv)).append h.variant).append
      (tight_group (tight_code (by decide_cbv)))).append (tight_code (by decide_cbv))).append
        (tight_group (tight_code (by decide_cbv)))).append (tight_code (by decide_cbv))
  have hallow : Tight (attributed (code "allow" ++ parens (code "unreachable_patterns"))) :=
    tight_attributed ((tight_code (by decide_cbv)).append
      (tight_group (tight_code (by decide_cbv))))
  have hparam : Tight (code "component :" ++ code reference ++ code "AnyComponent") :=
    ((tight_code (by decide_cbv)).append hreference).append (tight_code (by decide_cbv))
  have hresult : Tight (option (code reference ++ code "Self")) :=
    tight_option (hreference.append (tight_code (by decide_cbv)))
  exact (((((tight_code (by decide_cbv)).append hname).append (tight_group hparam)).append
    (tight_code (by decide_cbv))).append hresult).append (tight_group
      ((tight_code (by decide_cbv)).append (tight_group
        ((hsome.append hallow).append (tight_code (by decide_cbv))))))

theorem tight_membership (hruntime : Tight runtime) (h : EntryTight e) :
    Tight (membership runtime e) :=
  ((((tight_code (by decide_cbv)).append hruntime).append
    (tight_code (by decide_cbv))).append h.type).append (tight_group
      ((tight_projection h (tight_code (by decide_cbv)) (tight_code (by decide_cbv))).append
        (tight_projection h (tight_code (by decide_cbv)) (tight_code (by decide_cbv)))))

theorem tight_registryStruct (hruntime : Tight runtime) : Tight (registryStruct runtime) :=
  ((tight_doc (by decide_cbv)).append (tight_code (by decide_cbv))).append (tight_group
    (((tight_code (by decide_cbv)).append hruntime).append (tight_code (by decide_cbv))))

theorem tight_defaultImpl : Tight defaultImpl := by
  have hbody : Tight (code "Self :: new" ++ parens []) :=
    (tight_code (by decide_cbv)).append (tight_group .nil)
  have hfunction : Tight (code "fn default" ++ parens [] ++ code "-> Self" ++
      braces (code "Self :: new" ++ parens [])) :=
    (((tight_code (by decide_cbv)).append (tight_group .nil)).append
      (tight_code (by decide_cbv))).append (tight_group hbody)
  exact (tight_code (by decide_cbv)).append (tight_group hfunction)

theorem tight_newMethod (hruntime : Tight runtime) : Tight (newMethod runtime) := by
  have hbody : Tight (code "inner :" ++ runtime ++ code ":: Registry :: new" ++ parens [] ++
      code ",") :=
    ((((tight_code (by decide_cbv)).append hruntime).append (tight_code (by decide_cbv))).append
      (tight_group .nil)).append (tight_code (by decide_cbv))
  exact ((((tight_doc (by decide_cbv)).append (tight_code (by decide_cbv))).append
    (tight_group .nil)).append (tight_code (by decide_cbv))).append
      (tight_group ((tight_code (by decide_cbv)).append (tight_group hbody)))

theorem tight_registerMethod : Tight registerMethod := by
  have hparams : Tight (code
      "& mut self , name : impl :: core :: convert :: Into < :: std :: string :: String > ," ++
        code "component : impl :: core :: convert :: Into < AnyComponent > ,") :=
    (tight_code (by decide_cbv)).append (tight_code (by decide_cbv))
  have hbody : Tight (code "self . inner . register" ++
      parens (code "name , component . into" ++ parens [])) :=
    (tight_code (by decide_cbv)).append
      (tight_group ((tight_code (by decide_cbv)).append (tight_group .nil)))
  exact (((((tight_doc (by decide_cbv)).append (tight_code (by decide_cbv))).append
    (tight_group hparams)).append (tight_code (by decide_cbv))).append
      (tight_option (tight_code (by decide_cbv)))).append (tight_group hbody)

theorem tight_plainMethod {name : String} (hname : Tight (code name)) {result : Spelling}
    (hresult : Tight result) : Tight (plainMethod name result) :=
  (((((tight_code (by decide_cbv)).append hname).append
    (tight_group (tight_code (by decide_cbv)))).append (tight_code (by decide_cbv))).append
      hresult).append (tight_group
        (((tight_code (by decide_cbv)).append hname).append (tight_group .nil)))

theorem tight_getter (h : EntryTight e) : Tight (getter e) := by
  unfold getter
  split
  next => exact .nil
  next accessor haccessor =>
    have hdoc : Tight (attributed (code "doc =" ++
        quoted (" Returns the `" ++ e.name ++ "` registered under `name`."))) :=
      tight_attributed ((tight_code (by decide_cbv)).append (tight_quoted _))
    have hbody : Tight (code "self . get ::" ++ Artifact.inAngles e.type.spelling ++
        parens (code "name")) :=
      ((tight_code (by decide_cbv)).append (tight_inAngles h.type)).append
        (tight_group (tight_code (by decide_cbv)))
    exact (((((hdoc.append (tight_code (by decide_cbv))).append (h.accessor accessor haccessor)).append
      (tight_group (tight_code (by decide_cbv)))).append (tight_code (by decide_cbv))).append
        (tight_option ((tight_code (by decide_cbv)).append h.type))).append (tight_group hbody)

/-- An angle bracket that another one follows may be joint to it. -/
theorem tight_closing (joint : Bool) :
    Tight [.leaf (.mark '>' joint), .leaf (.mark '>' false)] := by
  cases joint <;> exact tight_of_isTightAll (by decide)

theorem tight_lookupTrees {runtime : Path} (hruntime : Tight runtime.spelling) (mutable : Bool)
    {summary : String} (hsummary : isRawText summary = true) (joint : Bool) :
    Tight (lookupTrees runtime mutable summary joint) := by
  have hname : Tight (code (if mutable then "get_mut" else "get")) := by
    cases mutable <;> exact tight_code (by decide_cbv)
  have hreference : Tight (code (if mutable then "& mut" else "&")) := by
    cases mutable <;> exact tight_code (by decide_cbv)
  have hbody : Tight (code "self . inner ." ++ code (if mutable then "get_mut" else "get") ++
      code ":: < T >" ++ parens (code "name")) :=
    (((tight_code (by decide_cbv)).append hname).append (tight_code (by decide_cbv))).append
      (tight_group (tight_code (by decide_cbv)))
  have hhead : Tight (doc summary ++ code "pub fn" ++ code (if mutable then "get_mut" else "get") ++
      code "< T :" ++ runtime.spelling) :=
    ((((tight_doc hsummary).append (tight_code (by decide_cbv))).append hname).append
      (tight_code (by decide_cbv))).append hruntime
  rw [lookupTrees_code]
  exact (((((hhead.append (tight_code (by decide_cbv))).append (tight_closing joint)).append
    (tight_group (hreference.append (tight_code (by decide_cbv))))).append
      (tight_code (by decide_cbv))).append
        (tight_option (hreference.append (tight_code (by decide_cbv))))).append (tight_group hbody)

theorem tight_listingTrees {runtime : Path} (hruntime : Tight runtime.spelling) (joint : Bool) :
    Tight (listingTrees runtime joint) := by
  rw [listingTrees_code]
  exact (((tight_code (by decide_cbv)).append hruntime).append
    (tight_code (by decide_cbv))).append (tight_closing joint)

theorem tight_methodsTrees {runtime : Path} (hruntime : Tight runtime.spelling)
    (h : ∀ e ∈ entries, EntryTight e) (joint : Bool) :
    Tight (methodsTrees runtime entries joint) := by
  refine .leaf (.word (by decide)) (.leaf (.word (by decide)) (tight_group (tight_flatten ?_)))
  intro piece hpiece
  simp only [methodPieces, List.mem_append, List.mem_cons, List.mem_map, List.mem_filter,
    List.not_mem_nil, or_false] at hpiece
  rcases hpiece with (rfl | rfl | rfl | rfl | rfl | rfl | rfl) | ⟨e, ⟨he, -⟩, rfl⟩
  · exact tight_newMethod hruntime
  · exact tight_registerMethod
  · exact tight_lookupTrees hruntime false (by decide_cbv) joint
  · exact tight_lookupTrees hruntime true (by decide_cbv) joint
  · exact tight_plainMethod (tight_code (by decide_cbv)) (tight_code (by decide_cbv))
  · exact tight_plainMethod (tight_code (by decide_cbv)) (tight_code (by decide_cbv))
  · exact (tight_doc (by decide_cbv)).append
      (tight_plainMethod (tight_code (by decide_cbv)) (tight_listingTrees hruntime joint))
  · exact tight_getter (h e he)

end Artifact

end ComponentRegistry
