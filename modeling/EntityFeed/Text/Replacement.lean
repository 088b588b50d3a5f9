/-! Replacing a text wherever it occurs in another one. -/
namespace EntityFeed.Text

/-- Replaces every occurrence of a pattern, which is not empty, from the front to the back. What has
been put in is not looked at again. -/
def replaceAll (pattern value : List Char) : List Char → List Char
  | [] => []
  | c :: rest =>
    if pattern.isPrefixOf (c :: rest) then
      value ++ replaceAll pattern value (rest.drop (pattern.length - 1))
    else c :: replaceAll pattern value rest
termination_by text => text.length
decreasing_by all_goals simp only [List.length_drop, List.length_cons]; omega

/-- The text with `value` wherever `pattern` occurs in it. -/
def replace (pattern value text : String) : String :=
  String.ofList (replaceAll pattern.toList value.toList text.toList)

example : replace "ab" "b" "aabab" = "abb" := by cbv

end EntityFeed.Text
