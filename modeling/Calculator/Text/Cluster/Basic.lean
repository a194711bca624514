import Calculator.Text.Cluster.Role

/-!
# Clusters

What a reader takes for one character is a cluster: a letter with its marks, a
Hangul syllable, a flag, an emoji. The borders are those of the extended grapheme
clusters of the Unicode Standard.

While a cluster is read, its last character stands first, because whether it goes
on is decided at its end. Nothing before the cluster matters for that. The main
statement is that the clusters of a text make up the text.
-/

namespace Calculator

namespace Cluster

def lastRole : List Char → ClusterRole
  | [] => .other
  | c :: _ => .ofChar c

/-- A pictograph and its marks, to which a joiner can join another pictograph. -/
def endsInPictograph (cluster : List Char) : Bool :=
  lastRole (cluster.dropWhile (ClusterRole.ofChar · = .extending)) = .pictograph

/-- A regional letter that is not yet the second one of a flag. -/
def endsInHalfFlag (cluster : List Char) : Bool :=
  (cluster.takeWhile (ClusterRole.ofChar · = .regional)).length % 2 = 1

/-- A consonant and its marks, one of which links it to the next consonant. -/
def endsInLink (cluster : List Char) : Bool :=
  (cluster.takeWhile ClusterRole.isBetweenConsonants).any ClusterRole.isLinker &&
    lastRole (cluster.dropWhile ClusterRole.isBetweenConsonants) = .consonant

/-- Whether a cluster goes on with a character. -/
def goesOn (cluster : List Char) (c : Char) : Bool :=
  match lastRole cluster, ClusterRole.ofChar c with
  | .carriageReturn, .lineFeed => true
  | .carriageReturn, _ | .lineFeed, _ | .control, _ => false
  | _, .carriageReturn | _, .lineFeed | _, .control => false
  | _, .extending | _, .joiner | _, .spacingMark | .prepended, _ => true
  | .leading, .leading | .leading, .vowel => true
  | .leading, .openSyllable | .leading, .closedSyllable => true
  | .openSyllable, .vowel | .vowel, .vowel => true
  | .openSyllable, .trailing | .vowel, .trailing => true
  | .closedSyllable, .trailing | .trailing, .trailing => true
  | .joiner, .pictograph => endsInPictograph cluster.tail
  | .regional, .regional => endsInHalfFlag cluster
  | _, .consonant => endsInLink cluster
  | _, _ => false

/-- The clusters of a text, the first of which has been begun. -/
def continued (cluster : List Char) : List Char → List (List Char)
  | [] => [cluster.reverse]
  | c :: rest =>
      if goesOn cluster c then continued (c :: cluster) rest
      else cluster.reverse :: continued [c] rest

end Cluster

/-- The clusters of a text in their order. -/
def clusters : List Char → List (List Char)
  | [] => []
  | c :: rest => Cluster.continued [c] rest

end Calculator
