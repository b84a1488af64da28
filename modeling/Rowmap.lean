import Rowmap.Backend.Embedded
import Rowmap.Backend.Recorder
import Rowmap.Backend.Remote
import Rowmap.Pool.Basic
import Rowmap.Proofs.Alignment
import Rowmap.Proofs.Binding
import Rowmap.Proofs.ChangeReader
import Rowmap.Proofs.CharColumn
import Rowmap.Proofs.Circulation
import Rowmap.Proofs.ColumnDomain
import Rowmap.Proofs.Conjunction
import Rowmap.Proofs.Counting
import Rowmap.Proofs.Creation
import Rowmap.Proofs.Equality
import Rowmap.Proofs.Evaluation
import Rowmap.Proofs.Finding
import Rowmap.Proofs.FirstCome
import Rowmap.Proofs.FirstMatch
import Rowmap.Proofs.Leftover
import Rowmap.Proofs.Lending
import Rowmap.Proofs.Listing
import Rowmap.Proofs.Mismatch
import Rowmap.Proofs.Opening
import Rowmap.Proofs.Padding
import Rowmap.Proofs.Placement
import Rowmap.Proofs.Provenance
import Rowmap.Proofs.QueryParts
import Rowmap.Proofs.Quotation
import Rowmap.Proofs.Recovery
import Rowmap.Proofs.Registration
import Rowmap.Proofs.RowReader
import Rowmap.Proofs.SelectReader
import Rowmap.Proofs.Setting
import Rowmap.Proofs.Settling
import Rowmap.Proofs.Standing
import Rowmap.Proofs.Stepwise
import Rowmap.Proofs.Storage
import Rowmap.Proofs.TableName
import Rowmap.Proofs.Traversal
import Rowmap.Proofs.Undisturbed
import Rowmap.Proofs.WideNumeral
import Rowmap.Record.Type
