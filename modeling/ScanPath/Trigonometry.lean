/-!
# Circular functions

The sine, the cosine and the angle of a vector come with the platform, and what
they give in the last bit is its own affair.  Curves and regions are defined
over any such functions; those of the platform are the ones that run.
-/

namespace ScanPath

class Trigonometry where
  sin : Float → Float
  cos : Float → Float
  /-- The angle of a vector, its second coordinate first. -/
  atan2 : Float → Float → Float

instance Trigonometry.platform : Trigonometry := ⟨Float.sin, Float.cos, Float.atan2⟩

end ScanPath
