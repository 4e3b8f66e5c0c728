/-!
Names the library keeps for itself.
-/

namespace QueryTemplate

/-- What every reserved name begins with. -/
def reservedHead : String := "__sqlstencil"

/-- The filter that every expression tag ends in. -/
def emitName : String := "__sqlstencil_emit"

/-- The variable that refers to the render. -/
def scopeName : String := "__sqlstencil_scope"

def isReservedName (name : String) : Bool :=
  reservedHead.toList.isPrefixOf name.toList

end QueryTemplate
