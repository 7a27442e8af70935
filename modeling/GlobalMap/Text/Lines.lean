/-!
Line ends. A line ends with a line feed, a carriage return, or both in this order.
-/
namespace GlobalMap.Text

/-- A text in which every line ends with a line feed alone. -/
def withLineFeeds : List Char → List Char
  | [] => []
  | '\r' :: '\n' :: rest => '\n' :: withLineFeeds rest
  | c :: rest => (if c = '\r' then '\n' else c) :: withLineFeeds rest

end GlobalMap.Text
