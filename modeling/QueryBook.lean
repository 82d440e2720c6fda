import QueryBook.Main
import QueryBook.Proofs.AliasTargets
import QueryBook.Proofs.CheckAndGenerate
import QueryBook.Proofs.CommentPlaces
import QueryBook.Proofs.KeyOrder
import QueryBook.Proofs.FaithfulTree
import QueryBook.Proofs.WrittenSql
import QueryBook.Proofs.ArgumentOrder
import QueryBook.Proofs.ReadsBack
import QueryBook.Proofs.SharedStructs
import QueryBook.Proofs.SqlLiterals
import QueryBook.Proofs.RunWrites
import QueryBook.Proofs.EmittedComments
import QueryBook.Proofs.ExportedNames
import QueryBook.Proofs.ImportNames
import QueryBook.Proofs.SeparateViews
import QueryBook.Proofs.ImportResolution
import QueryBook.Proofs.PackageNames
import QueryBook.Proofs.AccessorNames
import QueryBook.Proofs.FieldIndex
import QueryBook.Proofs.KeyedScalars
import QueryBook.Proofs.WrittenComments
import QueryBook.Proofs.Diagnostics
import QueryBook.Proofs.SavedSettings
