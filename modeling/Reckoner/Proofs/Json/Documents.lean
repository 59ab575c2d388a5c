import Reckoner.Json.Tree
import Reckoner.Proofs.Json.Strings

/-!
# Documents are read as they are written

A `Value` is made of texts, lists and objects, and carries the tokens it is written with and the tree
it stands for; that the tokens make the tree, wherever a value may stand, is part of it. Tokens are
written with any white space between them (`Token.Spelled`). **A text that spells the tokens of a value
is read as the tree of that value**, with nothing behind it (`Document.ofText_spelled`).
-/

namespace Reckoner.Json

/-! ## 1. Tokens -/

namespace Token

/-- The token that one character makes, where it stands for itself. -/
def mark? : Char → Option Token
  | '[' => some .openList
  | ']' => some .closeList
  | '{' => some .openObject
  | '}' => some .closeObject
  | ',' => some .comma
  | ':' => some .colon
  | _ => none

/-- **How tokens are written**: marks as one character, texts in any spelling between quotes, and
white space anywhere between them. -/
inductive Spelled : List Char → List Token → Prop
  | nil : Spelled [] []
  | blank {c : Char} {cs : List Char} {ts : List Token} (blank : isBlank c = true)
      (rest : Spelled cs ts) : Spelled (c :: cs) ts
  | mark {c : Char} {t : Token} {cs : List Char} {ts : List Token} (known : mark? c = some t)
      (rest : Spelled cs ts) : Spelled (c :: cs) (t :: ts)
  | text {body s cs : List Char} {ts : List Token} (spelled : Text.Spelled body s)
      (rest : Spelled cs ts) :
      Spelled ('"' :: (body ++ '"' :: cs)) (.text (.ok (String.ofList s)) :: ts)

section

variable {cs ds : List Char} {ts us : List Token}

theorem Spelled.append (h : Spelled cs ts) (h' : Spelled ds us) : Spelled (cs ++ ds) (ts ++ us) := by
  induction h with
  | nil => exact h'
  | blank blank _ ih => exact .blank blank ih
  | mark known _ ih => exact .mark known ih
  | text spelled _ ih => simpa using Spelled.text spelled ih

/-- Marks and white space spell the marks. -/
theorem spelled_marks (h : cs.all (fun c => isBlank c || (mark? c).isSome) = true) :
    Spelled cs (cs.filterMap mark?) := by
  induction cs with
  | nil => exact .nil
  | cons c cs ih =>
    obtain ⟨known, rest⟩ := (Bool.and_eq_true _ _).mp h
    cases marked : mark? c with
    | some t =>
      rw [List.filterMap_cons_some marked]
      exact .mark marked (ih rest)
    | none =>
      rw [List.filterMap_cons_none marked]
      exact .blank (by simpa [marked] using known) (ih rest)

/-- What is written between texts stands between their tokens. -/
theorem Spelled.intercalate {α : Type} {text : α → List Char} {tokens : α → List Token}
    (between : Spelled ds us) (h : ∀ a, Spelled (text a) (tokens a)) :
    ∀ as : List α, Spelled (ds.intercalate (as.map text)) (us.intercalate (as.map tokens))
  | [] => .nil
  | [a] => by simpa using h a
  | a :: a' :: as => by
      have rest := intercalate between h (a' :: as)
      simp only [List.map_cons, List.intercalate_cons_cons] at rest ⊢
      exact ((h a).append between).append rest

theorem first_mark {c : Char} {t : Token} (known : mark? c = some t) : first c cs = (t, cs) := by
  unfold mark? at known
  split at known <;> cases known <;> rfl

theorem isBlank_mark {c : Char} {t : Token} (known : mark? c = some t) : isBlank c = false := by
  unfold mark? at known
  split at known <;> cases known <;> rfl

theorem readFrom_blank {done : List Token} {c : Char} (blank : isBlank c = true) :
    readFrom done (c :: cs) = readFrom done cs := by
  rw [readFrom, if_pos blank]

theorem readFrom_first {done : List Token} {c : Char} (solid : isBlank c = false) :
    readFrom done (c :: cs) = readFrom ((first c cs).1 :: done) (first c cs).2 := by
  rw [readFrom, if_neg (by simp [solid])]

/-- **What is spelled is read.** -/
theorem readFrom_spelled (h : Spelled cs ts) :
    ∀ done, readFrom done cs = done.reverse ++ ts := by
  induction h with
  | nil =>
    intro done
    rw [readFrom, List.append_nil]
  | blank blank _ ih =>
    intro done
    rw [readFrom_blank blank, ih]
  | mark known _ ih =>
    intro done
    rw [readFrom_first (isBlank_mark known), first_mark known, ih]
    simp
  | @text body s cs ts spelled _ ih =>
    intro done
    have quoted : first '"' (body ++ '"' :: cs) = (.text (.ok (String.ofList s)), cs) :=
      Text.ofQuoted_spelled spelled cs
    rw [readFrom_first rfl, quoted, ih]
    simp

end

end Token

/-! ## 2. Trees -/

namespace Document

/-- The document behind a value, which stands in the innermost bracket. -/
def behind (node : Node) : List Bracket → List Token → Document
  | [], rest => ⟨.ok node, rest⟩
  | .list items :: stack, rest => assemble stack (.afterItem (node :: items)) rest
  | .object members key :: stack, rest =>
    assemble stack (.afterMember ((key, some node) :: members)) rest

/-- A token that completes a value. -/
theorem assemble_complete {stack stack' : List Bracket} {await : Await} {t : Token} {node : Node}
    (completes : await.take stack t = .ofValue node stack') (rest : List Token) :
    assemble stack await (t :: rest) = behind node stack' rest := by
  rw [assemble, completes]
  match stack' with
  | [] => rfl
  | .list items :: stack' => rfl
  | .object members key :: stack' => rfl

/-- A token that completes nothing. -/
theorem assemble_go {stack stack' : List Bracket} {await await' : Await} {t : Token}
    (goes : await.take stack t = .go stack' await') (rest : List Token) :
    assemble stack await (t :: rest) = assemble stack' await' rest := by
  rw [assemble, goes]

end Document

/-- **A value**, the tokens it is written with and the tree it stands for: wherever a value may stand,
these tokens make that tree. -/
structure Value where
  tokens : List Token
  node : Node
  builds : ∀ (stack : List Bracket) (place : Place) (rest : List Token),
    Document.assemble stack (.value place) (tokens ++ rest) = Document.behind node stack rest

namespace Value

open Document

/-- A text. -/
def text (s : String) : Value where
  tokens := [.text (.ok s)]
  node := .text (.ok s)
  builds _ _ rest := assemble_complete rfl rest

/-- The tokens inside the brackets of a list. -/
def itemTokens (items : List Value) : List Token :=
  [Token.comma].intercalate (items.map tokens)

/-- The items of a list that has begun, up to its end. The place is left open: the first item stands
behind the bracket, the others behind a comma. -/
theorem assemble_items (stack : List Bracket) (rest : List Token) :
    ∀ (items : List Value) (item : Value) (held : List Node) (place : Place),
      assemble (.list held :: stack) (.value place)
          (itemTokens (item :: items) ++ .closeList :: rest) =
        behind (.list (held.reverse ++ (item :: items).map node) none) stack rest
  | [], item, held, place => by
      have only : itemTokens [item] = item.tokens := by simp [itemTokens]
      rw [only, item.builds]
      refine (assemble_complete rfl rest).trans ?_
      simp
  | next :: items, item, held, place => by
      have more : itemTokens (item :: next :: items) =
          item.tokens ++ .comma :: itemTokens (next :: items) := by
        simp [itemTokens, List.intercalate_cons_cons]
      have comma : Await.take stack (.afterItem (item.node :: held)) .comma =
          .go (.list (item.node :: held) :: stack) (.value .item) := rfl
      rw [more, List.append_assoc, item.builds]
      refine (assemble_go comma _).trans ?_
      rw [List.append_eq, assemble_items stack rest items next (item.node :: held) .item]
      simp

/-- A list. -/
def list (items : List Value) : Value where
  tokens := .openList :: (itemTokens items ++ [.closeList])
  node := .list (items.map node) none
  builds stack place rest := by
    refine (assemble_go rfl _).trans ?_
    rw [List.append_eq, List.append_assoc]
    cases items with
    | nil =>
      -- a list may end right behind its bracket, and only there without an item
      exact assemble_complete rfl rest
    | cons item items => exact assemble_items stack rest items item [] .first

/-- The tokens of a member of an object. -/
def memberTokens (m : String × Value) : List Token :=
  .text (.ok m.1) :: .colon :: m.2.tokens

/-- The member that is read from them. -/
def memberNode (m : String × Value) : Member :=
  (.ok m.1, some m.2.node)

/-- The tokens inside the brackets of an object. -/
def membersTokens (members : List (String × Value)) : List Token :=
  [Token.comma].intercalate (members.map memberTokens)

/-- One member of an object that has begun. -/
theorem assemble_member (stack : List Bracket) (rest : List Token) (m : String × Value) (first : Bool)
    (held : List Member) :
    assemble stack (.key first held) (memberTokens m ++ rest) =
      assemble stack (.afterMember (memberNode m :: held)) rest := by
  refine (assemble_go rfl _).trans ?_
  refine (assemble_go rfl _).trans ?_
  exact m.2.builds (.object held (.ok m.1) :: stack) .member rest

/-- The members of an object that has begun, up to its end. -/
theorem assemble_members (stack : List Bracket) (rest : List Token) :
    ∀ (members : List (String × Value)) (m : String × Value) (held : List Member) (first : Bool),
      assemble stack (.key first held) (membersTokens (m :: members) ++ .closeObject :: rest) =
        behind (.object (held.reverse ++ (m :: members).map memberNode) none) stack rest
  | [], m, held, first => by
      have only : membersTokens [m] = memberTokens m := by simp [membersTokens]
      rw [only, assemble_member]
      refine (assemble_complete rfl rest).trans ?_
      simp
  | next :: members, m, held, first => by
      have more : membersTokens (m :: next :: members) =
          memberTokens m ++ .comma :: membersTokens (next :: members) := by
        simp [membersTokens, List.intercalate_cons_cons]
      rw [more, List.append_assoc, assemble_member]
      refine (assemble_go rfl _).trans ?_
      rw [List.append_eq, assemble_members stack rest members next (memberNode m :: held) false]
      simp

/-- An object. -/
def object (members : List (String × Value)) : Value where
  tokens := .openObject :: (membersTokens members ++ [.closeObject])
  node := .object (members.map memberNode) none
  builds stack place rest := by
    refine (assemble_go rfl _).trans ?_
    rw [List.append_eq, List.append_assoc]
    cases members with
    | nil => exact assemble_complete rfl rest
    | cons m members => exact assemble_members stack rest members m [] true

end Value

namespace Document

/-- **What spells a value is read as its tree.** -/
theorem ofText_spelled {s : String} {v : Value} (h : Token.Spelled s.toList v.tokens) :
    ofText s = ⟨.ok v.node, []⟩ := by
  have tokens : Token.ofText s = v.tokens := Token.readFrom_spelled h []
  unfold ofText ofTokens
  rw [tokens, ← List.append_nil v.tokens]
  exact v.builds [] .top []

end Document

end Reckoner.Json
