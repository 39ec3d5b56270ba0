import CloudCanvas.Proofs.Fold
import CloudCanvas.Proofs.Url.Percent
import CloudCanvas.Store.Remote

/-!
# The addresses of the designs of a remote store

Under the address of all designs each design has a segment of its own, but for two kinds of
names: dots lead back to the address of all designs or to a place above it, and of two names
that differ in tabs and line ends alone the one has the address of the other.  This is so for
every address that has a path of segments, however its text is read.

## Main definitions

* `Url.AddsSegment`: the names that have a segment of their own.
* `Url.segmentOf`: this segment.
* `Url.IsDirectlyBelow`, `Url.KeptApart`: where the addresses of designs are to lie.

The main statement is `RemoteStore.keptApart_iff`.
-/

namespace CloudCanvas

namespace Url

variable {special : Bool} {name other : String} {row : List (List Char)}

/-! ## The segment of a name -/

/-- A name for which a path gets a segment more: it is no dots, and if it is dots without its
tabs and line ends, these stand for the same place. -/
def AddsSegment (name : String) : Prop :=
  name ≠ "." ∧ name ≠ ".." ∧ withoutBreaks name.toList ≠ ['.', '.']

instance (name : String) : Decidable (AddsSegment name) :=
  inferInstanceAs (Decidable (name ≠ "." ∧ name ≠ ".." ∧
    withoutBreaks name.toList ≠ ['.', '.']))

/-- The segment that a path gets for a name: the characters that are left of the name, as
they are written in a segment.  Of a dot that was hidden by tabs and line ends nothing is
left. -/
def segmentOf (special : Bool) (name : String) : List Char :=
  if withoutBreaks name.toList = ['.'] then []
  else Percent.encode (Percent.inSegment special) (withoutBreaks name.toList)

theorem inSegment_percent (special : Bool) : Percent.inSegment special '%' = true := by
  cases special <;> decide

theorem inSegment_slash (special : Bool) : Percent.inSegment special '/' = true := by
  cases special <;> decide

theorem slash_notMem_segmentOf : '/' ∉ segmentOf special name := by
  rw [segmentOf]
  split
  · exact List.not_mem_nil
  · exact Percent.slash_notMem_encode (inSegment_slash special) _

/-- A name with a character that is not blank has one that is neither a tab nor a line
end. -/
theorem withoutBreaks_ne_nil (h : isAllBlank name = false) : withoutBreaks name.toList ≠ [] := by
  intro none
  obtain ⟨c, mem, printed⟩ : ∃ c ∈ name.toList, isBlank c = false := by
    simpa [isAllBlank] using h
  have dropped := List.filter_eq_nil_iff.1 none c mem
  simp only [Bool.not_eq_true, Bool.not_eq_false', Bool.or_eq_true, beq_iff_eq] at dropped
  rcases dropped with (rfl | rfl) | rfl <;> exact absurd printed (by decide)

/-- **The segments of two names are the same exactly if the names are** without their tabs
and line ends. -/
theorem segmentOf_eq_iff (h : isAllBlank name = false) (h' : isAllBlank other = false) :
    segmentOf special name = segmentOf special other ↔
      withoutBreaks name.toList = withoutBreaks other.toList := by
  have injective := Percent.encode_injective (inSegment_percent special)
  have written : ∀ {name : String}, isAllBlank name = false →
      Percent.encode (Percent.inSegment special) (withoutBreaks name.toList) ≠ [] := by
    intro name h none
    exact withoutBreaks_ne_nil h (injective none)
  rw [segmentOf, segmentOf]
  by_cases dot : withoutBreaks name.toList = ['.']
  · by_cases dot' : withoutBreaks other.toList = ['.']
    · simp [dot, dot']
    · rw [if_pos dot, if_neg dot', dot]
      exact iff_of_false (written h').symm (Ne.symm dot')
  · by_cases dot' : withoutBreaks other.toList = ['.']
    · rw [if_neg dot, if_pos dot', dot']
      exact iff_of_false (written h) dot
    · rw [if_neg dot, if_neg dot', injective.eq_iff]

/-! ## Pushing a name -/

theorem pushSegment_of_dots (dots : name = "." ∨ name = "..") :
    pushSegment special row name = row := by
  rcases dots with rfl | rfl <;> simp [pushSegment]

theorem pushSegment_of_hidden (h : name ≠ "." ∧ name ≠ "..") (root : row ≠ [[]])
    (up : withoutBreaks name.toList = ['.', '.']) :
    pushSegment special row name = row.dropLast ++ [[]] := by
  simp [pushSegment, h, root, up]

theorem pushSegment_of_addsSegment (h : AddsSegment name) (root : row ≠ [[]]) :
    pushSegment special row name = row ++ [segmentOf special name] := by
  obtain ⟨dot, dots, up⟩ := h
  simp only [pushSegment, dot, dots, decide_false, Bool.or_false, Bool.false_eq_true, if_false,
    if_neg root, segmentOf]
  split
  · rename_i hidden
    rw [if_pos hidden]
  · rename_i hidden
    exact absurd hidden up
  · rename_i visible _
    rw [if_neg visible]

/-! ## Addresses that differ in their paths -/

variable {u : Url} {above : List (List Char)}

theorem pathText_append (row behind : List (List Char)) :
    pathText (.segments (row ++ behind)) =
      pathText (.segments row) ++ pathText (.segments behind) := by
  simp [pathText]

/-- Addresses that differ only behind a path are the same text exactly if they are the same
path. -/
theorem text_eq_iff {p q : UrlPath} (place : placeholder u.scheme p = placeholder u.scheme q) :
    ({ u with path := p } : Url).text = ({ u with path := q } : Url).text ↔
      pathText p = pathText q := by
  constructor
  · intro same
    have chars := String.ofList_injective same
    cases h : u.authority <;> simpa [h, place] using chars
  · intro same
    simp [text, same, place]

/-- What stands in front of a path does not depend on what is pushed to it. -/
theorem placeholder_eq (scheme : String) (first : Char) (cs : List Char)
    (behind : List (List Char)) :
    placeholder scheme (.segments (above ++ (first :: cs) :: behind)) =
      placeholder scheme (.segments (above ++ [[]])) := by
  match above with
  | [] => simp [placeholder]
  | [] :: rest => cases rest <;> simp [placeholder]
  | (c :: cs) :: rest => simp [placeholder]

/-! ## Below the address of the designs -/

/-- An address has the path of another with a slash and one segment more. -/
def IsDirectlyBelow (u designs : Url) : Prop :=
  ∃ segment, '/' ∉ segment ∧ pathText u.path = pathText designs.path ++ '/' :: segment

/-- Two addresses are different, and each of them lies directly below the address of all
designs and is not that address. -/
structure KeptApart (designs u v : Url) : Prop where
  ne : u.text ≠ v.text
  ne_designs : u.text ≠ designs.text
  ne_designs' : v.text ≠ designs.text
  below : u.IsDirectlyBelow designs
  below' : v.IsDirectlyBelow designs

/-- The segment of the path of all designs. -/
def designsSegment : List Char := "designs".toList

/-- The address that a name has under the address of all designs. -/
def named (designs : Url) (special : Bool) (above : List (List Char)) (name : String) : Url :=
  { designs with path := .segments (pushSegment special (above ++ [designsSegment]) name) }

section Named

variable {designs : Url} (place : designs.path = .segments (above ++ [designsSegment]))

theorem append_designsSegment_ne : above ++ [designsSegment] ≠ [[]] := by
  intro same
  have last := congrArg List.getLast? same
  rw [List.getLast?_concat, List.getLast?_singleton] at last
  exact absurd last (by decide)

/-- A name that adds a segment stands behind the path of all designs. -/
theorem path_named (adds : AddsSegment name) : (named designs special above name).path =
    .segments (above ++ designsSegment :: [segmentOf special name]) := by
  rw [named, pushSegment_of_addsSegment adds append_designsSegment_ne]
  simp

theorem placeholder_named (adds : AddsSegment name) :
    placeholder designs.scheme (named designs special above name).path =
      placeholder designs.scheme (.segments (above ++ [[]])) := by
  rw [path_named adds]
  exact placeholder_eq _ 'd' _ _

/-- Two names that add segments have one address if they add the same segment. -/
theorem text_named_eq_iff (adds : AddsSegment name) (adds' : AddsSegment other) :
    (named designs special above name).text = (named designs special above other).text ↔
      segmentOf special name = segmentOf special other := by
  have same : placeholder designs.scheme (named designs special above name).path =
      placeholder designs.scheme (named designs special above other).path := by
    rw [placeholder_named adds, placeholder_named adds']
  refine (text_eq_iff same).trans ?_
  rw [path_named adds, path_named adds', pathText_append, pathText_append]
  simp [pathText]

include place

theorem placeholder_designs : placeholder designs.scheme designs.path =
    placeholder designs.scheme (.segments (above ++ [[]])) := by
  rw [place]
  exact placeholder_eq _ 'd' _ _

theorem pathText_named (adds : AddsSegment name) :
    pathText (named designs special above name).path =
      pathText designs.path ++ '/' :: segmentOf special name := by
  rw [path_named adds, place, pathText_append, pathText_append]
  simp [pathText]

/-- **A name has an address of its own directly below that of all designs exactly if it adds
a segment.** -/
theorem isDirectlyBelow_named_iff :
    ((named designs special above name).text ≠ designs.text ∧
      (named designs special above name).IsDirectlyBelow designs) ↔ AddsSegment name := by
  constructor
  · rintro ⟨ne, segment, -, below⟩
    refine ⟨?_, ?_, ?_⟩
    · intro dot
      refine ne ?_
      rw [named, pushSegment_of_dots (.inl dot), ← place]
    · intro dots
      refine ne ?_
      rw [named, pushSegment_of_dots (.inr dots), ← place]
    · intro up
      -- the path ends where the segment of all designs would begin
      by_cases plain : name ≠ "." ∧ name ≠ ".."
      · rw [named, pushSegment_of_hidden plain append_designsSegment_ne up, place,
          List.dropLast_concat, pathText_append, pathText_append] at below
        have lengths := congrArg List.length below
        simp [pathText] at lengths
      · refine ne ?_
        rw [named, pushSegment_of_dots (by tauto), ← place]
  · intro adds
    refine ⟨?_, segmentOf special name, slash_notMem_segmentOf, pathText_named place adds⟩
    intro same
    have placeholders : placeholder designs.scheme (named designs special above name).path =
        placeholder designs.scheme designs.path := by
      rw [placeholder_named adds, placeholder_designs place]
    have paths := (text_eq_iff placeholders).1 same
    rw [pathText_named place adds] at paths
    simp at paths

/-- **Two names are kept apart** exactly if both add segments and these differ. -/
theorem keptApart_named_iff (blank : isAllBlank name = false) (blank' : isAllBlank other = false) :
    KeptApart designs (named designs special above name) (named designs special above other) ↔
      AddsSegment name ∧ AddsSegment other ∧
        withoutBreaks name.toList ≠ withoutBreaks other.toList := by
  constructor
  · rintro ⟨ne, ne_designs, ne_designs', below, below'⟩
    have adds := (isDirectlyBelow_named_iff place).1 ⟨ne_designs, below⟩
    have adds' := (isDirectlyBelow_named_iff place).1 ⟨ne_designs', below'⟩
    refine ⟨adds, adds', ?_⟩
    intro same
    exact ne ((text_named_eq_iff adds adds').2 ((segmentOf_eq_iff blank blank').2 same))
  · rintro ⟨adds, adds', different⟩
    obtain ⟨ne_designs, below⟩ := (isDirectlyBelow_named_iff place).2 adds
    obtain ⟨ne_designs', below'⟩ := (isDirectlyBelow_named_iff place).2 adds'
    refine ⟨?_, ne_designs, ne_designs', below, below'⟩
    intro same
    exact different
      ((segmentOf_eq_iff blank blank').1 ((text_named_eq_iff adds adds').1 same))

end Named

end Url

namespace RemoteStore

open Url

variable {store : RemoteStore} {read : UrlReader} {designs : Url} {name other : String}

/-- The segment of all designs is pushed like any other. -/
theorem pushSegment_designs (special : Bool) (row : List (List Char)) :
    pushSegment special row "designs" = (if row = [[]] then [] else row) ++ [designsSegment] := by
  have plain : withoutBreaks "designs".toList = designsSegment := by decide
  have written : Percent.encode (Percent.inSegment special) designsSegment = designsSegment := by
    cases special <;> decide
  rw [← written, ← plain]
  rfl

/-- The address of a design is that of all designs with its name pushed to the path. -/
theorem exists_named (accepted : store.url read none = .ok designs) : ∃ special above,
    designs.path = .segments (above ++ [designsSegment]) ∧
      ∀ name, store.url read (some name) = .ok (named designs special above name) := by
  rw [url] at accepted
  split at accepted
  · cases accepted
  · rename_i base parsed
    cases path : base.path with
    | opaqueText text => simp [push?, path] at accepted
    | segments list =>
        simp only [push?, path, Option.toList_none, List.foldl_cons, List.foldl_nil,
          pushSegment_designs, Except.ok.injEq] at accepted
        refine ⟨isSpecial base.scheme, _, by rw [← accepted], ?_⟩
        intro name
        rw [url, parsed]
        simp only [push?, path, Option.toList_some, List.foldl_cons, List.foldl_nil,
          pushSegment_designs, named, ← accepted]

/-- **Which designs have addresses of their own**, whatever address is read from the text that
the store was given.  Of two designs with different names that are not blank, both have addresses,
and these are different from each other and lie directly below the address of all designs exactly
if neither name stands for a place and the names differ in more than tabs and line ends. -/
theorem keptApart_iff (accepted : store.url read none = .ok designs)
    (blank : isAllBlank name = false) (blank' : isAllBlank other = false) :
    ∃ u v, store.url read (some name) = .ok u ∧ store.url read (some other) = .ok v ∧
      (KeptApart designs u v ↔ AddsSegment name ∧ AddsSegment other ∧
        withoutBreaks name.toList ≠ withoutBreaks other.toList) := by
  obtain ⟨special, above, place, addresses⟩ := exists_named accepted
  exact ⟨_, _, addresses name, addresses other, keptApart_named_iff place blank blank'⟩

/-- A slash in a name and the same slash in encoded form are kept apart. -/
theorem keptApart_slashes : let store : RemoteStore := ⟨"https://designs.example.com/api/"⟩
    isAllBlank "a/b" = false ∧ isAllBlank "a%2Fb" = false ∧
      ∃ designs u v, store.url .plain none = .ok designs ∧ store.url .plain (some "a/b") = .ok u ∧
        store.url .plain (some "a%2Fb") = .ok v ∧ KeptApart designs u v := by
  intro store
  have blank : isAllBlank "a/b" = false := by decide
  have blank' : isAllBlank "a%2Fb" = false := by decide
  obtain ⟨designs, accepted⟩ : ∃ designs, store.url .plain none = .ok designs :=
    exists_eq_ok_of_isOk (by decide +kernel)
  obtain ⟨u, v, first, second, apart⟩ := keptApart_iff accepted blank blank'
  exact ⟨blank, blank', designs, u, v, accepted, first, second,
    apart.2 ⟨by decide, by decide, by decide⟩⟩

/-- A dot has the address of all designs, and a name has that of another which differs from
it in a tab alone. -/
theorem addresses_collide : let store : RemoteStore := ⟨"ftp://h"⟩
    isAllBlank "." = false ∧ isAllBlank "a\tb" = false ∧ isAllBlank "ab" = false ∧
      ∃ designs u, store.url .plain none = .ok designs ∧
        store.url .plain (some ".") = .ok designs ∧ store.url .plain (some "a\tb") = .ok u ∧
          store.url .plain (some "ab") = .ok u ∧ ¬ KeptApart designs u u := by
  intro store
  obtain ⟨designs, accepted⟩ : ∃ designs, store.url .plain none = .ok designs :=
    exists_eq_ok_of_isOk (by decide +kernel)
  obtain ⟨u, address⟩ : ∃ u, store.url .plain (some "ab") = .ok u :=
    exists_eq_ok_of_isOk (by decide +kernel)
  have dot : store.url .plain (some ".") = store.url .plain none := by decide +kernel
  have tab : store.url .plain (some "a\tb") = store.url .plain (some "ab") := by decide +kernel
  refine ⟨by decide, by decide, by decide, designs, u, accepted, dot.trans accepted,
    tab.trans address, address, ?_⟩
  intro apart
  exact apart.ne rfl

end RemoteStore

end CloudCanvas
