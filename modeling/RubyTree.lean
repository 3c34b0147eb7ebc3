import RubyTree.Access.NodeFunction
import RubyTree.Command.Run
import RubyTree.Main
import RubyTree.Proofs.Sexp.Refusal
import RubyTree.Proofs.Sexp.RoundTrip
import RubyTree.Proofs.Sexp.Tiling
import RubyTree.Proofs.Sexp.Locality
import RubyTree.Proofs.Sexp.Progress
import RubyTree.Proofs.Sexp.Descent
import RubyTree.Proofs.Access.Answers
import RubyTree.Proofs.Sexp.SecondReading
import RubyTree.Proofs.Access.Attributes
import RubyTree.Proofs.Sexp.Inspection
import RubyTree.Proofs.Sexp.Openings
import RubyTree.Proofs.Tree.Construction
import RubyTree.Proofs.Tree.ReadTrees
import RubyTree.Proofs.Tree.Equality
import RubyTree.Proofs.Access.Congruence
import RubyTree.Proofs.Access.Keys
import RubyTree.Proofs.Access.Lookups
import RubyTree.Proofs.Command.Collection
import RubyTree.Proofs.Command.Accounting
import RubyTree.Proofs.Access.Resolution
import RubyTree.Proofs.Sexp.Respelling
import RubyTree.Proofs.Sexp.WordClasses
import RubyTree.Proofs.Sexp.PrintedLines
import RubyTree.Proofs.Access.LiteralValues
import RubyTree.Proofs.Listing
import RubyTree.Proofs.Tree.Siblings
import RubyTree.Proofs.Access.Bodies
import RubyTree.Proofs.Text.Joins
import RubyTree.Proofs.Text.Occurrences
