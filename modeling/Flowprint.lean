import Flowprint.Command.Files
import Flowprint.Main
import Flowprint.Metadata.Document
import Flowprint.Proofs.Graph.Exchange
import Flowprint.Proofs.Index.Batches
import Flowprint.Proofs.Index.Ledger
import Flowprint.Proofs.Index.Recall
import Flowprint.Proofs.Index.Writers
import Flowprint.Proofs.Metadata.Saving
import Flowprint.Proofs.Relocation
import Flowprint.Proofs.Place
import Flowprint.Proofs.Metadata.Replacing
import Flowprint.Proofs.Metadata.Sharing
import Flowprint.Proofs.Index.Serving
import Flowprint.Proofs.Command.Annotating
import Flowprint.Proofs.Service.Admission
import Flowprint.Proofs.Command.Adding
import Flowprint.Proofs.Command.Splitting
import Flowprint.Proofs.Index.Accounts
import Flowprint.Proofs.Command.Listing
import Flowprint.Proofs.Graph.Locality
import Flowprint.Proofs.Feature.Extraction
import Flowprint.Proofs.Index.Refusal
import Flowprint.Proofs.Graph.Paths
import Flowprint.Proofs.Feature.Families
import Flowprint.Proofs.Numerals
import Flowprint.Proofs.Feature.Triples
import Flowprint.Proofs.Graph.Meaning
import Flowprint.Proofs.Written
import Flowprint.Proofs.Index.Dump
import Flowprint.Proofs.Index.Damage
import Flowprint.Proofs.Metadata.Failing
import Flowprint.Proofs.Exchange
