import HostMethods.Descriptor.Signature

/-!
# Method selectors

A call names the method it wants by name and descriptor text, so that overloads resolve
separately. The two parts are kept apart: a name may itself look like a descriptor, and then two
selectors with one joined text still differ.
-/

namespace HostMethods

/-- A method's name together with the text of its signature. -/
structure Selector where
  /-- The method's name. -/
  name : String
  /-- The text of the signature. -/
  descriptor : String
  deriving DecidableEq, Inhabited

namespace Selector

/-- The selector of a method with this name and signature. -/
def of (name : String) (signature : Signature) : Selector :=
  ⟨name, signature.text⟩

/-- The selector that a call names by a descriptor text; the text must be a signature. -/
def parse (name descriptor : String) : Except DescriptorError Selector :=
  (Signature.parse descriptor).map (of name)

/-- Name and descriptor joined. -/
def text (s : Selector) : String :=
  s.name ++ s.descriptor

/-- Selectors are ordered by their joined texts, and of two with one text the one with the shorter
name comes first. -/
def compareTo (a b : Selector) : Ordering :=
  (compare a.text b.text).then (compare a.name.utf8ByteSize b.name.utf8ByteSize)

/-- Whether a selector does not come after another one. -/
def le (a b : Selector) : Bool :=
  a.compareTo b ≠ .gt

end Selector

end HostMethods
