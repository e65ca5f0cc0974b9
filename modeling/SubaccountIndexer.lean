import SubaccountIndexer.Lib.Machine
import SubaccountIndexer.Lib.Once
import SubaccountIndexer.Lib.Journal
import SubaccountIndexer.Store
import SubaccountIndexer.Window
import SubaccountIndexer.CrossLedger
import SubaccountIndexer.StatusWrite
import SubaccountIndexer.Subaccounts
import SubaccountIndexer.Events
import SubaccountIndexer.SweepSpec
import SubaccountIndexer.DepositsOnly
import SubaccountIndexer.Detection
import SubaccountIndexer.CreditOnce
import SubaccountIndexer.LedgerRouting
import SubaccountIndexer.SweepFinal
import SubaccountIndexer.BatchSweep
import SubaccountIndexer.AccountText
import SubaccountIndexer.TxHash
import SubaccountIndexer.AdminCursor
import SubaccountIndexer.LegacyCursor
import SubaccountIndexer.Custodian
import SubaccountIndexer.CallerLock
import SubaccountIndexer.AddressViews
import SubaccountIndexer.AddressReuse
import SubaccountIndexer.Protocols
import SubaccountIndexer.Upgrade
import SubaccountIndexer.Lookup
import SubaccountIndexer.Announced
import SubaccountIndexer.Amounts
import SubaccountIndexer.Lib.LastWrite
import SubaccountIndexer.Adapter
import SubaccountIndexer.Decoders
import SubaccountIndexer.SweepCall
import SubaccountIndexer.WholeSweep
import SubaccountIndexer.Backlog
import SubaccountIndexer.Balances
import SubaccountIndexer.Client
import SubaccountIndexer.DepositAddresses
import SubaccountIndexer.CanonicalText
import SubaccountIndexer.ArchiveChoice
import SubaccountIndexer.Listing
import SubaccountIndexer.Clearing
import SubaccountIndexer.TransferDecoding
import SubaccountIndexer.AddressSweep
import SubaccountIndexer.StoredSize
import SubaccountIndexer.Lib.Balance
import SubaccountIndexer.Outstanding
import SubaccountIndexer.Provenance
import SubaccountIndexer.Custody
import SubaccountIndexer.WellFormed
import SubaccountIndexer.Panics
import SubaccountIndexer.Strangers
import SubaccountIndexer.CatchUp
import SubaccountIndexer.Forwarding
import SubaccountIndexer.Stall
import SubaccountIndexer.Lib.Contents
import SubaccountIndexer.Tally
import SubaccountIndexer.Lib.Reorder
import SubaccountIndexer.Commute
import SubaccountIndexer.Completion
import SubaccountIndexer.Lib.PrefixCode
import SubaccountIndexer.Lib.CandidCode
import SubaccountIndexer.StoredForm
import SubaccountIndexer.Hashes
import SubaccountIndexer.HexTexts
import SubaccountIndexer.Backfill
import SubaccountIndexer.Reports
import SubaccountIndexer.Rows
import SubaccountIndexer.Gaps
