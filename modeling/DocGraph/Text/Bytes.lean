namespace DocGraph.Text

/-- The bytes of a text in UTF-8. -/
def bytes (text : String) : List UInt8 := text.toUTF8.data.toList

/-- The first byte in which texts differ decides; a text stands behind its beginnings. -/
def compareBytes (left right : String) : Ordering :=
  compareOfLessAndEq (bytes left) (bytes right)

end DocGraph.Text
