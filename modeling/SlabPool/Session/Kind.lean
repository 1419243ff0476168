import SlabPool.ItemType
import SlabPool.Word

/-!
# Kinds of items

The types of items that pools of a session can be made for, and how values of them are kept in
storage. Most kinds are rows of words, padded with zeros; a text is kept apart from its item, which
holds the number under which the text is filed; a tracked value carries a number by which its end
is noted, and may raise a fault at its end.

Not every value fits into the items of every kind: `Kind.Admits` says which do.
-/

namespace SlabPool

/-- The values that items of a session hold. -/
inductive Datum where
  | word (n : Nat)
  | doubleWord (n : Nat)
  | row (ns : List Nat)
  | text (s : String)
  | tracked (id : Nat) (faulty : Bool)
  deriving DecidableEq, Repr, Inhabited

/-- The types of items of a session. -/
inductive Kind where
  | word
  | pointer
  | doubleWord
  | pair
  | triple
  | wide
  | big
  | text
  | line
  | page
  | tracked
  deriving DecidableEq, Repr, Inhabited

namespace Datum

/-- Cuts the zeros at the end of a row off. -/
def trim (words : List Nat) : List Nat :=
  (words.reverse.dropWhile (· == 0)).reverse

end Datum

/-- The texts that items refer to, by number. -/
abbrev Archive := Array String

namespace Kind

/-- What happens at the end of a tracked value. -/
def finaliseTracked : Image → Option String
  | [id, faulty] => if faulty = 0 then none else some ("bomb " ++ toString id)
  | _ => none

/-- The type of the items of each kind. -/
def itemType : Kind → ItemType
  | .word => { name := "u64", size := 8, align := 8, width := 1 }
  | .pointer => { name := "*const u8", size := 8, align := 8, width := 1 }
  | .doubleWord => { name := "u128", size := 16, align := 16, width := 2 }
  | .pair => { name := "[u64; 2]", size := 16, align := 8, width := 2 }
  | .triple => { name := "[u64; 3]", size := 24, align := 8, width := 3 }
  | .wide => { name := "[u64; 8]", size := 64, align := 8, width := 8 }
  | .big => { name := "[u64; 128]", size := 1024, align := 8, width := 128 }
  | .text => { name := "alloc::string::String", size := 24, align := 8, width := 1 }
  | .line => { name := "fixed_pool::driver::CacheLine", size := 64, align := 64, width := 1 }
  | .page => { name := "fixed_pool::driver::Page", size := 4096, align := 4096, width := 1 }
  | .tracked =>
    { name := "fixed_pool::driver::Tracked", size := 16, align := 8, width := 2
      finalise := finaliseTracked }

/-- Cuts a row of words to the width of the kind, or fills it up with zeros. -/
def fit (kind : Kind) (words : List Nat) : kind.itemType.Value :=
  ⟨(words ++ List.replicate kind.itemType.width 0).take kind.itemType.width, by simp⟩

/-- The words in which a value is kept, and the texts with its own filed, if it has one. -/
def encode (kind : Kind) (archive : Archive) : Datum → kind.itemType.Value × Archive
  | .word n => (kind.fit [n], archive)
  | .doubleWord n => (kind.fit [n % Word.modulus, n / Word.modulus], archive)
  | .row ns => (kind.fit ns, archive)
  | .text s => (kind.fit [archive.size], archive.push s)
  | .tracked id faulty => (kind.fit [id, if faulty then 1 else 0], archive)

/-- The value that is kept in some words. -/
def datum (kind : Kind) (archive : Archive) (image : Image) : Datum :=
  match kind, image with
  | .word, [n] | .pointer, [n] | .line, [n] | .page, [n] => .word n
  | .doubleWord, [low, high] => .doubleWord (low + high * Word.modulus)
  | .text, [number] => .text (archive.getD number "")
  | .tracked, [id, faulty] => .tracked id (faulty != 0)
  | _, words => .row (Datum.trim words)

/-- The number by which the end of a value is noted, if it is. -/
def endNote? (kind : Kind) (image : Image) : Option Nat :=
  match kind with
  | .tracked => image.head?
  | _ => none

/-- The values that items of a kind can hold. Every number in them fits into a word, or into two for
a double word, and a row is not longer than the items. -/
def Admits (kind : Kind) : Datum → Prop
  | .word n =>
    (kind = .word ∨ kind = .pointer ∨ kind = .line ∨ kind = .page) ∧ n < Word.modulus
  | .doubleWord n => kind = .doubleWord ∧ n < Word.modulus * Word.modulus
  | .row ns =>
    (kind = .pair ∨ kind = .triple ∨ kind = .wide ∨ kind = .big)
      ∧ ns.length ≤ kind.itemType.width ∧ ∀ n ∈ ns, n < Word.modulus
  | .text _ => kind = .text
  | .tracked id _ => kind = .tracked ∧ id < Word.modulus

instance (kind : Kind) : DecidablePred kind.Admits := by
  intro datum
  cases datum <;> dsimp only [Admits] <;> infer_instance

end Kind

end SlabPool
