import Patchbay.Proofs.Script.Helper

/-!
The trees of the two scripts by which values are taken apart. Equality of trees is not decided anywhere, so
a test takes a tree apart by its shape and compares the names and places within it.
-/
namespace Patchbay.Script

open Text

def flattenerArrow : Arrow where
  source := .ofString flattener
  param := .ofString "v"
  place := ⟨1, 1⟩
  body :=
    .conditional
      (.logical .or
        (.binary .instanceOf (.name (.ofString "v") ⟨1, 8⟩) (.name (.ofString "Set") ⟨1, 21⟩))
        (.call (.member (.name (.ofString "ArrayBuffer") ⟨1, 28⟩) (.ofString "isView") ⟨1, 28⟩)
          [.name (.ofString "v") ⟨1, 47⟩] ⟨1, 28⟩))
      (.call (.member (.name (.ofString "Array") ⟨1, 53⟩) (.ofString "from") ⟨1, 53⟩)
        [.name (.ofString "v") ⟨1, 64⟩] ⟨1, 53⟩)
      (.name (.ofString "undefined") ⟨1, 69⟩)

def narrowerArrow : Arrow where
  source := .ofString narrower
  param := .ofString "v"
  place := ⟨1, 1⟩
  body :=
    .conditional
      (.binary .strictEq
        (.call (.member (.name (.ofString "BigInt") ⟨1, 7⟩) (.ofString "asIntN") ⟨1, 7⟩)
          [.number (.ofInt 64), .name (.ofString "v") ⟨1, 25⟩] ⟨1, 7⟩)
        (.name (.ofString "v") ⟨1, 32⟩))
      (.call (.name (.ofString "String") ⟨1, 36⟩) [.name (.ofString "v") ⟨1, 43⟩] ⟨1, 36⟩)
      (.call (.name (.ofString "Number") ⟨1, 48⟩) [.name (.ofString "v") ⟨1, 55⟩] ⟨1, 48⟩)

def isFlattener : Except Complaint Program → Bool
  | .ok ⟨[.expr (.function (.mk ⟨n, .arrow, false, false, true, [], false, 1, false, source⟩
      [.leaf (.name p p₀)]
      [.returns (some (.conditional
        (.logical .or (.binary .instanceOf (.name a p₁) (.name b p₂))
          (.call (.member (.name c p₃) d p₄) [.name e p₅] p₆))
        (.call (.member (.name f p₇) g p₈) [.name h p₉] p₁₀) (.name i p₁₁)))]))], [], true⟩ =>
    [n, source, p, a, b, c, d, e, f, g, h, i] ==
      [default, .ofString flattener, .ofString "v", .ofString "v", .ofString "Set",
        .ofString "ArrayBuffer", .ofString "isView", .ofString "v", .ofString "Array",
        .ofString "from", .ofString "v", .ofString "undefined"] &&
    [p₀, p₁, p₂, p₃, p₄, p₅, p₆, p₇, p₈, p₉, p₁₀, p₁₁] ==
      [⟨1, 1⟩, ⟨1, 8⟩, ⟨1, 21⟩, ⟨1, 28⟩, ⟨1, 28⟩, ⟨1, 47⟩, ⟨1, 28⟩, ⟨1, 53⟩, ⟨1, 53⟩, ⟨1, 64⟩,
        ⟨1, 53⟩, ⟨1, 69⟩]
  | _ => false

def isNarrower : Except Complaint Program → Bool
  | .ok ⟨[.expr (.function (.mk ⟨n, .arrow, false, false, true, [], false, 1, false, source⟩
      [.leaf (.name p p₀)]
      [.returns (some (.conditional
        (.binary .strictEq
          (.call (.member (.name a p₁) b p₂) [.number bits, .name c p₃] p₄) (.name d p₅))
        (.call (.name e p₆) [.name f p₇] p₈) (.call (.name g p₉) [.name h p₁₀] p₁₁)))]))], [], true⟩ =>
    [n, source, p, a, b, c, d, e, f, g, h] ==
      [default, .ofString narrower, .ofString "v", .ofString "BigInt", .ofString "asIntN",
        .ofString "v", .ofString "v", .ofString "String", .ofString "v", .ofString "Number",
        .ofString "v"] &&
    [p₀, p₁, p₂, p₃, p₄, p₅, p₆, p₇, p₈, p₉, p₁₀, p₁₁] ==
      [⟨1, 1⟩, ⟨1, 7⟩, ⟨1, 7⟩, ⟨1, 25⟩, ⟨1, 7⟩, ⟨1, 32⟩, ⟨1, 36⟩, ⟨1, 43⟩, ⟨1, 36⟩, ⟨1, 48⟩,
        ⟨1, 55⟩, ⟨1, 48⟩] && bits == .ofInt 64
  | _ => false

theorem program_of_isFlattener {read : Except Complaint Program} (shape : isFlattener read = true) :
    read = .ok flattenerArrow.program := by
  unfold isFlattener at shape
  split at shape
  · simp only [Bool.and_eq_true, beq_iff_eq, List.cons.injEq, and_true] at shape
    obtain ⟨⟨rfl, rfl, rfl, rfl, rfl, rfl, rfl, rfl, rfl, rfl, rfl, rfl⟩,
      rfl, rfl, rfl, rfl, rfl, rfl, rfl, rfl, rfl, rfl, rfl, rfl⟩ := shape
    rfl
  · cases shape

theorem program_of_isNarrower {read : Except Complaint Program} (shape : isNarrower read = true) :
    read = .ok narrowerArrow.program := by
  unfold isNarrower at shape
  split at shape
  · simp only [Bool.and_eq_true, beq_iff_eq, List.cons.injEq, and_true] at shape
    obtain ⟨⟨⟨rfl, rfl, rfl, rfl, rfl, rfl, rfl, rfl, rfl, rfl, rfl⟩,
      rfl, rfl, rfl, rfl, rfl, rfl, rfl, rfl, rfl, rfl, rfl, rfl⟩, rfl⟩ := shape
    rfl
  · cases shape

theorem flattener_read : flattenerArrow.IsRead flattener := by
  apply program_of_isFlattener
  decide +kernel

theorem narrower_read : narrowerArrow.IsRead narrower := by
  apply program_of_isNarrower
  decide +kernel

end Patchbay.Script
