import LoginNames.Bytes

/-! # Name lists

A name list is a list of byte strings in the order in which they were read. -/

set_option autoImplicit false

namespace LoginNames

abbrev NameList := List Bytes

namespace NameList

def ofStrings (names : List String) : NameList := names.map Bytes.ofString

def totalBytes (names : NameList) : Nat := names.foldl (fun total name => total + name.length) 0

end NameList

end LoginNames
