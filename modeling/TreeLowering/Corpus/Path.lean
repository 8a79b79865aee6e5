/-!
# File names

The extension of a file name is what follows its last dot. A name without a dot, or
with its only dot in front, has none. Names are joined to paths by slashes.
-/

namespace TreeLowering.Corpus

/-- A file name cut at its last dot: the stem and the extension, if there is one. -/
def splitExtension (name : List Char) : List Char × Option (List Char) :=
  let extension := (name.reverse.takeWhile (· != '.')).reverse
  let stem := name.take (name.length - extension.length - 1)
  if extension.length = name.length || stem.isEmpty then (name, none) else (stem, some extension)

/-- The extension of a file name. -/
def extension? (name : String) : Option String :=
  (splitExtension name.toList).2.map String.ofList

/-- A path inside a directory, whose own path may end in a slash. -/
def inDirectory (directory path : String) : String :=
  if directory.toList.getLast?.all (· == '/') then directory ++ path
  else directory ++ "/" ++ path

/-- A path with another extension on its last component; an empty one takes the dot away. -/
def withExtension (path extension : String) : String :=
  let cs := path.toList
  let name := (cs.reverse.takeWhile (· != '/')).reverse
  let folder := cs.take (cs.length - name.length)
  let stem := (splitExtension name).1
  String.ofList (folder ++ stem ++
    if extension.isEmpty then [] else '.' :: extension.toList)

end TreeLowering.Corpus
